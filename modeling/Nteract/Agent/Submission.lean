import Nteract.Agent.Theorems

namespace Nteract.Agent

open RuntimeDoc Kernel Lib.Transition
open List hiding after

def Launches : AgentEvent → Prop
  | .Request (.LaunchKernel (.Launched _) _) => True
  | .Request (.RestartKernel (.Launched _)) => True
  | _ => False

def Started (doc : RuntimeStateDoc) (executionId : ExecutionId) : Prop :=
  ∃ entry, doc.getExecution executionId = some entry ∧ entry.status ≠ .Queued

-- No frame of the coordinator puts a started execution back into the queue.
def KeepsStarted (session : Session) : AgentEvent → Prop
  | .RuntimeStateSync merged _ =>
    ∀ executionId, Started session.doc executionId → Started merged executionId
  | _ => True

-- The ids of the requests the connection took, or of all that were tried.
def submissions (tried : Bool) (start : Nat) (requests : List (ExecutionId × Bool)) :
    List ExecutionId :=
  ((requests.drop start).filter fun request => request.2 || tried).map Prod.fst

-- An id is not sent again: it was handed over in this generation, or it is started.
def Settled (tried : Bool) (session : Session) (executionId : ExecutionId) : Prop :=
  executionId ∈ session.seenExecutionIds ∨ tried = true ∧ Started session.doc executionId

structure Once (tried : Bool) (start : Nat) (session : Session) : Prop where
  bound : start ≤ session.runtime.requests.length
  nodup : (submissions tried start session.runtime.requests).Nodup
  gone : ∀ executionId ∈ submissions tried start session.runtime.requests,
    executionId ∉ session.state.waiting
  settled : session.kernel.isSome →
    ∀ executionId ∈ submissions tried start session.runtime.requests,
      Settled tried session executionId

variable {session : Session} {event : AgentEvent} {tried : Bool} {start : Nat}

section Document

variable {doc : RuntimeStateDoc} {executionId : ExecutionId}

theorem started_of_running : Started
    ((doc.createExecution executionId).setExecutionRunning executionId) executionId := by
  have hc := @RuntimeStateDoc.getExecution_createExecution doc executionId executionId
  have hr := @RuntimeStateDoc.getExecution_setExecutionRunning
    (doc.createExecution executionId) executionId executionId
  rw [if_pos rfl] at hc hr
  rw [hc] at hr
  exact ⟨_, hr, by simp⟩

variable (hs : Started doc executionId)

include hs

theorem started_of_map (hc : ∀ entry, entry.status ≠ .Queued → (change entry).status ≠ .Queued)
    (hd : doc'.getExecution executionId = (doc.getExecution executionId).map change) :
    Started doc' executionId := by
  obtain ⟨entry, he, hne⟩ := hs
  exact ⟨change entry, by rw [hd, he]; rfl, hc entry hne⟩

theorem started_of_eq (hd : doc'.getExecution executionId = doc.getExecution executionId) :
    Started doc' executionId := by
  obtain ⟨entry, he, hne⟩ := hs
  exact ⟨entry, hd.trans he, hne⟩

theorem started_setQueue : Started (doc.setQueue executing queued) executionId :=
  started_of_eq hs (RuntimeStateDoc.getExecution_setQueue executing queued)

theorem started_createExecution : Started (doc.createExecution other) executionId := by
  refine started_of_eq hs ?_
  obtain ⟨_, he, -⟩ := hs
  rw [RuntimeStateDoc.getExecution_createExecution]
  by_cases ho : executionId = other
  · rw [if_pos ho, ← ho, he]
    rfl
  · rw [if_neg ho]

theorem started_of_adjust (hc : ∀ entry, (change entry).status ≠ .Queued)
    (hd : doc'.getExecution executionId =
      if executionId = other then (doc.getExecution executionId).map change
      else doc.getExecution executionId) :
    Started doc' executionId := by
  by_cases ho : executionId = other
  · rw [if_pos ho] at hd
    exact started_of_map hs (fun entry _ => hc entry) hd
  · rw [if_neg ho] at hd
    exact started_of_eq hs hd

theorem started_setExecutionRunning : Started (doc.setExecutionRunning other) executionId :=
  started_of_adjust hs (fun _ => by simp) RuntimeStateDoc.getExecution_setExecutionRunning

theorem started_setExecutionDone (success : Bool) :
    Started (doc.setExecutionDone other success) executionId :=
  started_of_adjust hs (fun _ => by cases success <;> simp)
    (RuntimeStateDoc.getExecution_setExecutionDone success)

theorem started_setExecutionCancelled : Started (doc.setExecutionCancelled other) executionId :=
  started_of_adjust hs (fun _ => by simp) RuntimeStateDoc.getExecution_setExecutionCancelled

theorem started_abortInflightExecutions : Started doc.abortInflightExecutions executionId := by
  refine started_of_map hs ?_ RuntimeStateDoc.getExecution_abortInflightExecutions
  intro entry hne
  unfold RuntimeStateDoc.abortEntry
  split
  · simp
  · simp
  · exact hne

theorem started_resolveLocal : Started (resolveLocal executing queued doc) executionId := by
  have hf : ∀ queued : List ExecutionId, ∀ doc : RuntimeStateDoc, Started doc executionId →
      Started (queued.foldl (fun doc id => doc.setExecutionCancelled id) doc) executionId := by
    intro queued
    induction queued with
    | nil => exact fun _ hs => hs
    | cons _ _ ih => exact fun doc hs => ih _ (started_setExecutionCancelled hs)
  cases executing with
  | none => exact hf queued doc hs
  | some => exact hf queued _ (started_setExecutionDone hs false)

theorem started_resolveInterruptedExecutions :
    Started (resolveInterruptedExecutions executing queued doc) executionId :=
  started_setQueue (started_abortInflightExecutions (started_resolveLocal hs))

end Document

theorem submissions_append (hb : start ≤ session.runtime.requests.length)
    (executionId : ExecutionId) (ok : Bool) :
    submissions tried start (session.runtime.requests ++ [(executionId, ok)]) =
      submissions tried start session.runtime.requests ++
        if ok || tried then [executionId] else [] := by
  unfold submissions
  rw [drop_append_of_le_length hb, filter_append]
  cases hc : (ok || tried) with
  | true | false => simp [hc]

theorem once_start (tried : Bool) (session : Session) :
    Once tried session.runtime.requests.length session where
  bound := Nat.le_refl _
  nodup := by simp [submissions]
  gone := by simp [submissions]
  settled := by simp [submissions]

theorem Once.quiet (ho : Once tried start session)
    (hr : after.runtime.requests = session.runtime.requests)
    (hw : ∀ executionId ∈ after.state.waiting, executionId ∈ session.state.waiting)
    (hk : after.kernel.isSome → session.kernel.isSome ∧
      ∀ executionId, Settled tried session executionId → Settled tried after executionId) :
    Once tried start after where
  bound := by rw [hr]; exact ho.bound
  nodup := by rw [hr]; exact ho.nodup
  gone := by
    rw [hr]
    exact fun executionId hm hin => ho.gone executionId hm (hw executionId hin)
  settled := by
    rw [hr]
    intro hsome executionId hm
    obtain ⟨hb, hs⟩ := hk hsome
    exact hs executionId (ho.settled hb executionId hm)

theorem Once.sent (ho : Once tried start session)
    (hr : after.runtime.requests = session.runtime.requests ++ [(executionId, ok)])
    (hw : ∀ other ∈ after.state.waiting, other ∈ session.state.waiting ∧ other ≠ executionId)
    (hn : executionId ∉ submissions tried start session.runtime.requests)
    (hk : session.kernel.isSome)
    (hs : ∀ other, Settled tried session other → Settled tried after other)
    (hsent : (ok || tried) = true → Settled tried after executionId) :
    Once tried start after := by
  have hsub := @submissions_append session tried start ho.bound executionId ok
  constructor
  · rw [hr, length_append]
    have hb := ho.bound
    omega
  · rw [hr, hsub]
    cases hc : (ok || tried) with
    | false => simpa using ho.nodup
    | true =>
      refine nodup_append.mpr ⟨ho.nodup, nodup_singleton _, ?_⟩
      intro earlier hm later hl he
      rw [if_pos rfl, mem_singleton] at hl
      exact hn (hl ▸ he ▸ hm)
  · rw [hr, hsub]
    intro other hm hin
    rcases mem_append.mp hm with hm | hm
    · exact ho.gone other hm (hw other hin).1
    · have he : other = executionId := by
        cases hc : (ok || tried) with
        | false => simp [hc] at hm
        | true => simpa [hc] using hm
      exact (hw other hin).2 he
  · rw [hr, hsub]
    intro _ other hm
    rcases mem_append.mp hm with hm | hm
    · exact hs other (ho.settled hk other hm)
    · cases hc : (ok || tried) with
      | false => simp [hc] at hm
      | true =>
        have he : other = executionId := by simpa [hc] using hm
        exact he ▸ hsent hc

section Steps

theorem Once.installed (ho : Once tried start session) :
    Once tried start session.installKernelChannels :=
  ⟨ho.bound, ho.nodup, ho.gone, ho.settled⟩

-- The entries still to be handed over are distinct, and those sent before are known.
def Pending (tried : Bool) (start : Nat) (queued : List (ExecutionId × ExecutionState))
    (session : Session) : Prop :=
  Once tried start session ∧ (queued.map Prod.fst).Nodup ∧
    ∀ entry ∈ queued, entry.1 ∈ submissions tried start session.runtime.requests →
      entry.1 ∈ session.seenExecutionIds

theorem once_submitted (ho : Once tried start session) (hk : session.kernel.isSome)
    (hn : queued.1 ∈ submissions tried start session.runtime.requests → queued.1 ∈
      session.seenExecutionIds) (hs : Submitted connection session queued after) :
    Once tried start after := by
  cases hs with
  | Skipped => exact ho
  | Held =>
    refine ho.quiet rfl (fun _ hm => hm) fun hk => ⟨hk, fun other hother => ?_⟩
    exact hother.imp_left (mem_cons_of_mem _)
  | Behind source hs =>
    have hw : (queuedBehind queued source session).state.waiting =
        session.state.waiting ++ [queued.1] := by
      simp [queuedBehind, Runtime.enqueue, Session.state, KernelState.waiting]
    refine ⟨ho.bound, ho.nodup, ?_, fun hk id hm => ?_⟩
    · intro id hm hin
      rw [hw, mem_append, mem_singleton] at hin
      rcases hin with hin | rfl
      · exact ho.gone id hm hin
      · exact hs (hn hm)
    · refine (ho.settled hk id hm).imp (mem_cons_of_mem _) fun hd => ⟨hd.1, ?_⟩
      exact started_setQueue (started_createExecution hd.2)
  | Sent _ hs =>
    refine ho.sent rfl ?_ (fun hm => hs (hn hm)) hk ?_ ?_
    · intro other hin
      cases hin
    · intro other hother
      refine hother.imp (fun hm => ?_) fun hd => ⟨hd.1, ?_⟩
      · simp only [sentAtOnce]
        split
        · exact .tail _ hm
        · exact hm
      · exact started_setQueue (started_setExecutionRunning
          (started_setQueue (started_createExecution hd.2)))
    · intro hc
      by_cases hok : (connection queued.1).isOk = true
      · left
        simp [sentAtOnce, hok]
      · -- the send failed, so it counts only where the document remembers it
        right
        have ht : tried = true := by simpa [hok] using hc
        refine ⟨ht, started_setQueue ?_⟩
        have hr := @started_of_running session.doc queued.1
        refine started_of_eq hr ?_
        simp [Runtime.enqueue, RuntimeStateDoc.getExecution_setExecutionRunning, Session.doc]

theorem pending_submitted (hk : session.kernel.isSome)
    (hp : Pending tried start (queued :: rest) session)
    (hs : Submitted connection session queued after) : Pending tried start rest after := by
  obtain ⟨ho, hn, hnew⟩ := hp
  rw [map_cons, nodup_cons] at hn
  rw [forall_mem_cons] at hnew
  refine ⟨once_submitted ho hk hnew.1 hs, hn.2, ?_⟩
  intro entry hm hsent
  have hne : entry.1 ≠ queued.1 := fun he => hn.1 (he ▸ mem_map_of_mem hm)
  cases hs with
  | Skipped => exact hnew.2 entry hm hsent
  | Held | Behind => exact .tail _ (hnew.2 entry hm hsent)
  | Sent source =>
    have hl : (sentAtOnce queued source connection session).runtime.requests =
        session.runtime.requests ++ [(queued.1, (connection queued.1).isOk)] := rfl
    rw [hl, submissions_append ho.bound, mem_append] at hsent
    have hb : entry.1 ∈ submissions tried start session.runtime.requests := by
      rcases hsent with hsent | hsent
      · exact hsent
      · split at hsent
        · exact absurd (mem_singleton.mp hsent) hne
        · cases hsent
    simp only [sentAtOnce]
    split
    · exact .tail _ (hnew.2 entry hm hb)
    · exact hnew.2 entry hm hb

variable (hr : Ready session) (ho : Once tried start session)
include hr ho

theorem once_scan : Once tried start
      (session.queueSyncedExecutions session.doc.getQueuedExecutions connection) := by
  unfold Session.queueSyncedExecutions
  cases hk : session.kernel with
  | none => exact ho
  | some =>
    have hsome : session.kernel.isSome := by simp [hk]
    have hp : Pending tried start session.doc.getQueuedExecutions session := by
      refine ⟨ho, RuntimeStateDoc.nodup_getQueuedExecutions _, ?_⟩
      intro entry hm hsent
      rcases ho.settled hsome entry.1 hsent with hseen | ⟨-, _, hg, hne⟩
      · exact hseen
      · -- the document still has the entry queued
        obtain ⟨hget', hq⟩ := RuntimeStateDoc.mem_getQueuedExecutions.mp hm
        rw [hg, Option.some.injEq] at hget'
        exact absurd (hget' ▸ hq) hne
    exact (foldl_submit (Pending tried start)
      (fun _ _ _ _ _ hk hp hs => pending_submitted hk hp hs) hr hsome hp).1.1

theorem once_front {runtime : Runtime}
    (hk : session.kernel.isSome) (hq : session.state.queue = cell :: queue)
    (hrun : runtime.requests = session.runtime.requests)
    (hd : ∀ executionId, Started session.doc executionId → Started runtime.doc executionId) :
    Once tried start { session with runtime := runtime.start cell queue answer } := by
  have hw : session.state.waiting = cell.executionId :: queue.map (·.executionId) := by
    simp [KernelState.waiting, hq]
  have hf : cell.executionId ∈ session.state.waiting := by simp [hw]
  refine ho.sent (by rw [← hrun]; rfl) ?_ (fun hm => ho.gone _ hm hf) hk ?_ ?_
  · intro other hm
    have hm' : other ∈ queue.map (·.executionId) := hm
    have hn := hr.waiting_nodup
    rw [hw, nodup_cons] at hn
    rw [hw]
    exact ⟨.tail _ hm', fun he => hn.1 (he ▸ hm')⟩
  · intro other hother
    refine hother.imp_right fun ht => ⟨ht.1, ?_⟩
    exact started_setQueue (started_setExecutionRunning (hd other ht.2))
  · exact fun _ => .inl (hr.seen hk _ hf)

theorem once_progressed {after : Runtime}
    (hk : session.kernel.isSome) (hp : Progressed connection session.runtime after) :
    Once tried start { session with runtime := after } := by
  cases hp with
  | Same => exact ho
  | Finished =>
    refine ho.quiet rfl (fun _ hm => hm) fun hk => ⟨hk, fun other hother => ?_⟩
    refine hother.imp_right fun ht => ⟨ht.1, ?_⟩
    exact started_setQueue (started_setExecutionDone ht.2 _)
  | FinishedNext _ _ _ _ hq =>
    refine once_front hr ho hk hq rfl fun other hs => ?_
    exact started_setQueue (started_setExecutionDone hs _)
  | Opened => exact ho.quiet rfl (fun _ hm => hm) fun hk => ⟨hk, fun _ hother => hother⟩
  | OpenedNext _ _ _ hq => exact once_front hr ho hk hq rfl fun _ hs => hs

theorem once_handled (hl : ¬ Launches event) (hd : tried = true → KeepsStarted session event)
    (hh : Handled session event after) : Once tried start after := by
  cases hh with
  | Kept => exact ho
  | LaunchFailed _ _ _ hk =>
    refine ho.quiet rfl (fun _ hm => hm) fun hk => ⟨hk, fun other hother => ?_⟩
    exact hother.imp_right fun ht => ⟨ht.1, started_abortInflightExecutions ht.2⟩
  | RestartFailed =>
    unfold Session.recordFailure
    split <;> exact ho.quiet rfl (fun _ hm => hm) nofun
  | Interrupted =>
    refine ho.quiet rfl nofun fun hk => ⟨hk, fun other hother => ?_⟩
    exact hother.imp_right fun ht => ⟨ht.1, started_resolveInterruptedExecutions ht.2⟩
  | Shutdown => exact ho.quiet rfl nofun nofun
  | Synced merged =>
    have hmerged : Once tried start (session.setDoc merged) := by
      refine ho.quiet rfl (fun _ hm => hm) fun hk => ⟨hk, fun other hother => ?_⟩
      exact hother.imp_right fun ht => ⟨ht.1, hd ht.1 other ht.2⟩
    exact once_scan (hr.withDoc merged) hmerged
  | Progress _ _ _ hk hp => exact once_progressed hr ho hk hp
  | Failed =>
    refine ho.quiet rfl nofun fun hk => ⟨hk, fun other hother => ?_⟩
    exact hother.imp_right fun ht => ⟨ht.1, started_setQueue (started_resolveLocal ht.2)⟩
  | Expected hs => exact ho.quiet rfl (fun _ hm => hm) (by simp [hr.stopped (.inl hs)])
  | Died hs =>
    obtain ⟨hkernel, hrequests, hstate⟩ := kernelDied_cases hs
    refine ho.quiet hrequests ?_ (by simp [hkernel])
    intro executionId hm
    simp only [Session.state] at hm
    rcases hstate with hstate | hstate
    · rw [hstate] at hm
      exact hm
    · rw [hstate] at hm
      cases hm
  | _ => exact absurd trivial hl

theorem once_handle (hl : ¬ Launches event) (hd : tried = true → KeepsStarted session event) :
    Once tried start (handle session event) :=
  handle_rule _ (fun _ ho => ho.installed) fun _ => once_handled hr ho hl hd

omit ho

-- The first event of a generation is the launch itself, with the scan it ends in.
theorem once_first (hd : tried = true → KeepsStarted session event)
    (hh : Handled session event after) :
    Once tried session.runtime.requests.length after := by
  by_cases hl : Launches event
  · cases hh with
    | Kept => exact once_start tried session
    | Launched kernel =>
      have ha : Ready (session.adopt kernel) := ready_adopt kernel
      have hf : Ready { session.adopt kernel with seenExecutionIds := [] } :=
        ready_of_empty rfl ha.stopped
      have ho : Once tried session.runtime.requests.length
          { session.adopt kernel with seenExecutionIds := [] } :=
        once_start tried { session.adopt kernel with seenExecutionIds := [] }
      exact once_scan hf ho
    | Restarted kernel => exact once_start tried (session.tearDown.adopt kernel)
    | _ => exact hl.elim
  · exact once_handled hr (once_start tried session) hl hd hh

theorem once_handle_first (hd : tried = true → KeepsStarted session event) :
    Once tried session.runtime.requests.length (handle session event) :=
  handle_rule _ (fun _ ho => ho.installed) fun _ => once_first hr hd

omit hr

theorem run_once
    (hrun : Run (Guarded AgentStep fun session event => tried = true → KeepsStarted session event)
      session events last) (hl : ∀ event ∈ events, ¬ Launches event) (hr : Ready session)
    (ho : Once tried start session) : Once tried start last := by
  induction hrun with
  | nil => exact ho
  | cons hs _ ih =>
    obtain ⟨hd, rfl⟩ := hs
    rw [forall_mem_cons] at hl
    exact ih hl.2 (ready_handle hr _) (once_handle hr ho hl.1 hd)

theorem run_first (hr : Ready session)
    (hrun : Run (Guarded AgentStep fun session event => tried = true → KeepsStarted session event)
      session (event :: events) last) (hl : ∀ event ∈ events, ¬ Launches event) :
    (submissions tried session.runtime.requests.length last.runtime.requests).Nodup := by
  cases hrun with
  | cons hs hrun =>
    obtain ⟨hd, rfl⟩ := hs
    exact (run_once hrun hl (ready_handle hr event) (once_handle_first hr hd)).nodup

end Steps

-- After at most one launch no id is taken twice. Where no frame queues a started execution again,
-- none is even tried twice.
theorem submitted_at_most_once {doc : RuntimeStateDoc} {earlier events : List AgentEvent}
    {first : Session} (hfirst : Run AgentStep (.new doc) earlier first)
    (hl : ∀ event ∈ events, ¬ Launches event) :
    (∀ last, Run AgentStep first (event :: events) last →
      (submissions false first.runtime.requests.length last.runtime.requests).Nodup) ∧
    (∀ last, Run (Guarded AgentStep KeepsStarted) first (event :: events) last →
      (submissions true first.runtime.requests.length last.runtime.requests).Nodup) := by
  have hr := run_ready hfirst (ready_new doc)
  constructor
  · exact fun _ hrun => run_first hr (hrun.guarded fun _ _ _ => nofun) hl
  · exact fun _ hrun => run_first hr (hrun.mono fun _ _ _ hs => ⟨fun _ => hs.1, hs.2⟩) hl

def RESYNC : AgentEvent := .RuntimeStateSync (queuedDocument ["a"]) takes

-- The launch sends "a". A frame that still has it queued does not send it again.
theorem resync_after_launch_sends_nothing :
    submissions false 0 (handle (handle (.new (queuedDocument ["a"])) LAUNCH)
      RESYNC).runtime.requests = ["a"] ∧
    (submissions false 0 (handle (handle (.new (queuedDocument ["a"])) LAUNCH)
      RESYNC).runtime.requests).Nodup := by
  refine ⟨by decide, ?_⟩
  have hr : Run AgentStep (.new (queuedDocument ["a"])) [] (.new (queuedDocument ["a"])) :=
    .nil _
  have hl : ∀ event ∈ [RESYNC], ¬ Launches event := by simp [RESYNC, Launches]
  exact (@submitted_at_most_once LAUNCH _ _ _ _ hr hl).1 _ (.cons rfl (.cons rfl (.nil _)))

end Nteract.Agent
