import Nteract.Lib.Transition
import Nteract.RuntimePolicy

namespace Nteract.RuntimePolicy

open Lib Lib.Transition Check Option Table
open RuntimeDoc (QueueState RuntimeStateWriteScope)

variable {ν β : Type}

-- An output that keeps its place, or its display handle with another payload.
def KeepsOutput (before after : JsonValue ν) : Prop :=
  after = before ∨
    isDisplay before = true ∧
      (∃ id, displayId before = some id ∧ id ≠ "") ∧
      ∀ key, key ∉ ["data", "metadata"] → after.get key = before.get key

def KeepsOutputs (before after : List (JsonValue ν)) : Prop :=
  ∀ (index : Nat) output, before[index]? = some output →
    ∃ later, after[index]? = some later ∧ KeepsOutput output later

structure KeepsExecution (before after : ExecutionState ν) : Prop where
  source : after.source = before.source
  cellId : after.cellId = before.cellId
  seq : after.seq = before.seq
  submittedByActorLabel : after.submittedByActorLabel = before.submittedByActorLabel
  terminal : isTerminal before.status = true → after.status = before.status ∧
    after.success = before.success ∧ after.executionCount = before.executionCount ∧
    KeepsOutputs before.outputs after.outputs

structure KeepsSession (before after : BokehSessionState) : Prop where
  epoch : before.epoch ≤ after.epoch
  provenance : sameProvenance before after = true
  closed : before.status = .Closed → after = before

structure KeepsHostFields (before after : RuntimeStatePolicySnapshot ν β) : Prop where
  localEnvironmentIdentity : after.localEnvironmentIdentity = before.localEnvironmentIdentity
  env : after.state.env = before.state.env
  trust : after.state.trust = before.state.trust
  runtimeStateDocId : after.state.runtimeStateDocId = before.state.runtimeStateDocId
  lastSaved : after.state.lastSaved = before.state.lastSaved
  fileCheckpoint : after.state.fileCheckpoint = before.state.fileCheckpoint
  projectTrust : after.state.projectTrust = before.state.projectTrust
  path : after.state.path = before.state.path
  projectContext : after.state.projectContext = before.state.projectContext
  workstation : after.state.workstation = before.state.workstation

structure Keeps (before after : RuntimeStatePolicySnapshot ν β) : Prop where
  ids : ∀ executionId, after.state.executions.find executionId = none ↔
    before.state.executions.find executionId = none
  executions : ∀ executionId earlier later,
    before.state.executions.find executionId = some earlier →
    after.state.executions.find executionId = some later → KeepsExecution earlier later
  host : KeepsHostFields before after
  sessions : ∀ sessionId earlier, before.state.bokehSessions.find sessionId = some earlier →
    ∃ later, after.state.bokehSessions.find sessionId = some later ∧ KeepsSession earlier later

theorem KeepsOutput.trans (hf : KeepsOutput first middle) (hl : KeepsOutput middle last) :
    KeepsOutput first last := by
  rcases hf with rfl | ⟨hfirst, hid, hfields⟩
  · exact hl
  · rcases hl with rfl | ⟨-, -, hlater⟩
    · exact .inr ⟨hfirst, hid, hfields⟩
    · exact .inr ⟨hfirst, hid, fun key hk => (hlater key hk).trans (hfields key hk)⟩

theorem KeepsOutputs.trans (hf : KeepsOutputs first middle) (hl : KeepsOutputs middle last) :
    KeepsOutputs first last := by
  intro index output ho
  obtain ⟨next, hn, hk⟩ := hf index output ho
  obtain ⟨later, hlater, hk'⟩ := hl index next hn
  exact ⟨later, hlater, hk.trans hk'⟩

theorem KeepsExecution.trans (hf : KeepsExecution first middle) (hl : KeepsExecution middle last) :
    KeepsExecution first last where
  source := hl.source.trans hf.source
  cellId := hl.cellId.trans hf.cellId
  seq := hl.seq.trans hf.seq
  submittedByActorLabel := hl.submittedByActorLabel.trans hf.submittedByActorLabel
  terminal := by
    intro ht
    obtain ⟨hs, hsuccess, hc, ho⟩ := hf.terminal ht
    rw [← hs] at ht
    obtain ⟨hstatus', hsuccess', hcount', houtputs'⟩ := hl.terminal ht
    exact ⟨hstatus'.trans hs, hsuccess'.trans hsuccess, hcount'.trans hc, ho.trans houtputs'⟩

theorem sameProvenance_iff : sameProvenance before after = true ↔
      before.outputId = after.outputId ∧ before.cellId = after.cellId ∧
      before.executionId = after.executionId ∧ before.kernelId = after.kernelId ∧
      before.producerName = after.producerName ∧ before.producerVersion = after.producerVersion ∧
      before.bokehVersion = after.bokehVersion ∧ before.rootIds = after.rootIds := by
  simp [sameProvenance, and_assoc]

theorem KeepsSession.trans (hf : KeepsSession first middle) (hl : KeepsSession middle last) :
    KeepsSession first last where
  epoch := hf.epoch.trans hl.epoch
  provenance := by
    have hfirst := sameProvenance_iff.mp hf.provenance
    have hlast := sameProvenance_iff.mp hl.provenance
    rw [sameProvenance_iff]
    grind
  closed := by
    intro hc
    have hs := hf.closed hc
    rw [← hs] at hc
    exact (hl.closed hc).trans hs

theorem KeepsHostFields.trans (hf : KeepsHostFields first middle)
    (hl : KeepsHostFields middle last) :
    KeepsHostFields first last where
  localEnvironmentIdentity := hl.localEnvironmentIdentity.trans hf.localEnvironmentIdentity
  env := hl.env.trans hf.env
  trust := hl.trust.trans hf.trust
  runtimeStateDocId := hl.runtimeStateDocId.trans hf.runtimeStateDocId
  lastSaved := hl.lastSaved.trans hf.lastSaved
  fileCheckpoint := hl.fileCheckpoint.trans hf.fileCheckpoint
  projectTrust := hl.projectTrust.trans hf.projectTrust
  path := hl.path.trans hf.path
  projectContext := hl.projectContext.trans hf.projectContext
  workstation := hl.workstation.trans hf.workstation

theorem Keeps.trans (hf : Keeps first middle) (hl : Keeps middle last) : Keeps first last where
  ids executionId := (hl.ids executionId).trans (hf.ids executionId)
  executions := by
    intro executionId earlier later he hlater
    cases hm : middle.state.executions.find executionId with
    | none =>
      rw [(hf.ids executionId).mp hm] at he
      cases he
    | some execution =>
      exact (hf.executions executionId earlier execution he hm).trans
        (hl.executions executionId execution later hm hlater)
  host := hf.host.trans hl.host
  sessions := by
    intro sessionId earlier he
    obtain ⟨session, hs, hk⟩ := hf.sessions sessionId earlier he
    obtain ⟨later, hlater, hk'⟩ := hl.sessions sessionId session hs
    exact ⟨later, hlater, hk.trans hk'⟩

theorem KeepsExecution.refl (execution : ExecutionState ν) : KeepsExecution execution execution :=
  ⟨rfl, rfl, rfl, rfl, fun _ => ⟨rfl, rfl, rfl, fun _ output ho => ⟨output, ho, .inl rfl⟩⟩⟩

theorem Keeps.refl (snapshot : RuntimeStatePolicySnapshot ν β) : Keeps snapshot snapshot where
  ids _ := Iff.rfl
  executions := by
    intro executionId earlier later he hl
    rw [he] at hl
    rw [some.inj hl]
    exact .refl later
  host := ⟨rfl, rfl, rfl, rfl, rfl, rfl, rfl, rfl, rfl, rfl⟩
  sessions _ session hs :=
    ⟨session, hs, le_refl _, by simp [sameProvenance], fun _ => rfl⟩

section Updates

variable [DecidableEq ν] [DecidableEq β]

def PeerUpdate (before next after : RuntimeStatePolicySnapshot ν β) : Prop :=
  after = next ∧ validateRuntimeStateSyncScope .RuntimePeer before next = .ok ()

-- The update leaves the result and the outputs of cancelled executions alone.
def SparesCancelled (before next : RuntimeStatePolicySnapshot ν β) : Prop :=
  ∀ executionId earlier later, before.state.executions.find executionId = some earlier →
    earlier.status = "cancelled" → next.state.executions.find executionId = some later →
    later.success = earlier.success ∧ later.executionCount = earlier.executionCount ∧
      runtimePeerOutputsPreservedPrefix earlier.outputs later.outputs = true

theorem displayUpdate_keeps {before after : JsonValue ν}
    (hu : runtimePeerDisplayUpdateAllowed before after = true) : KeepsOutput before after := by
  simp only [runtimePeerDisplayUpdateAllowed, Bool.and_eq_true] at hu
  obtain ⟨⟨⟨⟨hd, hid⟩, -⟩, -⟩, hw⟩ := hu
  refine .inr ⟨hd, ?_, fun key hk => ?_⟩
  · split at hid
    · rename_i id hf
      exact ⟨id, hf, by simpa using hid⟩
    · cases hid
  · split at hw
    · rename_i fields later hb ha
      unfold JsonValue.get
      rw [ha, hb, bind_some, bind_some, ← JsonValue.lookup_without hk later,
        ← of_decide_eq_true hw, JsonValue.lookup_without hk]
    · cases hw

theorem preservedPrefix_keeps {before after : List (JsonValue ν)}
    (hp : runtimePeerOutputsPreservedPrefix before after = true) : KeepsOutputs before after := by
  intro index output ho
  obtain ⟨hl, ha⟩ := Bool.and_eq_true_iff.mp hp
  obtain ⟨hi, hoeq⟩ := List.getElem?_eq_some_iff.mp ho
  have hin : index < after.length := hi.trans_le (of_decide_eq_true hl)
  refine ⟨after[index], List.getElem?_eq_getElem hin, ?_⟩
  have hpair := List.all_eq_true.mp ha (output, after[index]) (by
    rw [← hoeq, List.mem_iff_getElem]
    exact ⟨index, by simp [hi, hin], by simp⟩)
  simp only [Bool.or_eq_true, decide_eq_true_eq] at hpair
  rcases hpair with hs | hu
  · exact .inl hs.symm
  · exact displayUpdate_keeps hu

theorem isTerminal_iff :
    isTerminal status = true ↔ isSettled status = true ∨ status = "cancelled" := by
  simp [isTerminal]

theorem terminal_transition (ht : isTerminal before = true)
    (ha : runtimePeerStatusTransitionAllowed before after = true) : after = before := by
  rcases Bool.or_eq_true_iff.mp ha with hs | hm
  · exact (beq_iff_eq.mp hs).symm
  · simp only [List.contains_eq_mem, decide_eq_true_eq, List.mem_cons, List.not_mem_nil,
      or_false] at hm
    rcases hm with ⟨rfl, -⟩ | ⟨rfl, -⟩ | ⟨rfl, -⟩ | ⟨rfl, -⟩ | ⟨rfl, -⟩ | ⟨rfl, -⟩
    all_goals exact absurd ht (by decide)

theorem executionUpdate_keeps {before after : ExecutionState ν}
    (hv : validateRuntimePeerExecutionUpdate .RuntimePeer executionId before after = .ok ())
    (hc : before.status = "cancelled" → after.success = before.success ∧ after.executionCount =
      before.executionCount ∧ runtimePeerOutputsPreservedPrefix before.outputs after.outputs =
      true) : KeepsExecution before after := by
  simp only [validateRuntimePeerExecutionUpdate, all_cons_ok, require_ok, all_nil,
    and_true, Bool.and_eq_true, beq_iff_eq] at hv
  obtain ⟨⟨⟨⟨hsource, hcell⟩, hseq⟩, ha⟩, htransition, hr, ho⟩ := hv
  refine ⟨hsource.symm, hcell.symm, hseq.symm, ha.symm, fun ht => ?_⟩
  have hs := terminal_transition ht htransition
  rcases isTerminal_iff.mp ht with hsettled | hcancelled
  · simp only [hsettled, hs, beq_self_eq_true, Bool.true_and, Bool.not_eq_true',
      Bool.or_eq_false_iff, bne_eq_false_iff_eq, Bool.not_eq_false'] at hr ho
    exact ⟨hs, hr.1.symm, hr.2.symm, preservedPrefix_keeps ho⟩
  · obtain ⟨hsuccess, hcount, hp⟩ := hc hcancelled
    exact ⟨hs, hsuccess, hcount, preservedPrefix_keeps hp⟩

theorem sessionUpdate_keeps
    (hv : validateBokehSessionUpdate .RuntimePeer sessionId before after = .ok ()) :
    KeepsSession before after := by
  simp only [validateBokehSessionUpdate, all_cons_ok, require_ok] at hv
  obtain ⟨hp, -, hclosed, he, -⟩ := hv
  refine ⟨by simpa using he, hp, fun hc => ?_⟩
  simp only [hc, beq_self_eq_true, Bool.true_and, Bool.not_eq_true', bne_eq_false_iff_eq] at hclosed
  exact hclosed.symm

variable {after : RuntimeStatePolicySnapshot ν β}

omit [DecidableEq β] in
theorem executionDelta_ids
    (hv : validateRuntimePeerExecutionDelta .RuntimePeer before after = .ok ())
    (executionId : String) : after.state.executions.find executionId = none ↔
      before.state.executions.find executionId = none := by
  simp only [validateRuntimePeerExecutionDelta, all_cons_ok, forEach_ok] at hv
  obtain ⟨ha, hr, -⟩ := hv
  constructor
  · intro hn
    by_contra hs
    obtain ⟨execution, he⟩ := ne_none_iff_exists'.mp hs
    have hkept := hr (executionId, execution) (find_eq_some.mp he)
    simp [hn] at hkept
  · intro hn
    by_contra hs
    obtain ⟨execution, he⟩ := ne_none_iff_exists'.mp hs
    have hk := ha (executionId, execution) (find_eq_some.mp he)
    simp [hn] at hk

omit [DecidableEq β] in
theorem executionDelta_keeps
    (hv : validateRuntimePeerExecutionDelta .RuntimePeer before after = .ok ())
    (hc : SparesCancelled before after) {earlier later : ExecutionState ν}
    (he : before.state.executions.find executionId = some earlier)
    (hl : after.state.executions.find executionId = some later) :
    KeepsExecution earlier later := by
  simp only [validateRuntimePeerExecutionDelta, all_cons_ok, forEach_ok, all_nil, and_true] at hv
  have hu := hv.2.2 (executionId, earlier) (find_eq_some.mp he)
  simp only [hl] at hu
  exact executionUpdate_keeps hu fun hcancelled =>
    hc executionId earlier later he hcancelled hl

omit [DecidableEq ν] in
theorem hostOwnedDelta_keeps
    (hv : validateRuntimePeerRoomHostOwnedDelta .RuntimePeer before after = .ok ()) :
    KeepsHostFields before after := by
  simp only [validateRuntimePeerRoomHostOwnedDelta, unchangedByPeer, all_cons_ok,
    require_ok, all_nil, and_true, beq_iff_eq, decide_eq_true_eq] at hv
  obtain ⟨hi, he, ht, hid, hs, hc, hp, hpath, hcontext, hworkstation⟩ := hv
  exact ⟨hi.symm, he.symm, ht.symm, hid.symm, hs.symm, hc.symm,
    hp.symm, hpath.symm, hcontext.symm, hworkstation.symm⟩

omit [DecidableEq ν] [DecidableEq β] in
theorem sessions_keep (hv : validateBokehSessions .RuntimePeer before after = .ok ())
    (he : before.state.bokehSessions.find sessionId = some earlier) :
    ∃ later, after.state.bokehSessions.find sessionId = some later ∧
      KeepsSession earlier later := by
  simp only [validateBokehSessions, all_cons_ok, forEach_ok, all_nil, and_true, require_ok] at hv
  obtain ⟨hk, hvalid⟩ := hv
  obtain ⟨later, hl⟩ := isSome_iff_exists.mp (hk (sessionId, earlier) (find_eq_some.mp he))
  have hu := (hvalid (sessionId, later) (find_eq_some.mp hl)).2
  simp only [he] at hu
  exact ⟨later, hl, sessionUpdate_keeps hu⟩

theorem update_keeps (hv : validateRuntimeStateSyncScope .RuntimePeer before after = .ok ())
    (hc : SparesCancelled before after) : Keeps before after := by
  simp only [validateRuntimeStateSyncScope, validateRuntimePeerRuntimeDelta, all_cons_ok,
    all_nil, and_true] at hv
  obtain ⟨-, he, -, hh, -, hs⟩ := hv
  exact ⟨executionDelta_ids he, fun _ _ _ hearlier hl => executionDelta_keeps he hc hearlier hl,
    hostOwnedDelta_keeps hh, fun _ _ hearlier => sessions_keep hs hearlier⟩

theorem updates_keep {updates : List (RuntimeStatePolicySnapshot ν β)}
    (hr : Run (Guarded PeerUpdate SparesCancelled) first updates last) : Keeps first last := by
  refine hr.relates (fun _ => True) Keeps .refl (fun _ _ _ => .trans) ?_ trivial
  rintro _ _ _ - ⟨hc, rfl, hv⟩
  exact ⟨trivial, update_keeps hv hc⟩

-- Whatever a runtime peer gets accepted, over any number of updates, stays in its lane.
theorem peer_stays_in_lane {first seen last : RuntimeStatePolicySnapshot ν β}
    {earlier later : List (RuntimeStatePolicySnapshot ν β)}
    (he : Run (Guarded PeerUpdate SparesCancelled) first earlier seen)
    (hl : Run (Guarded PeerUpdate SparesCancelled) seen later last) :
    (∀ executionId, last.state.executions.find executionId = none ↔
      first.state.executions.find executionId = none) ∧
    (∀ executionId old new, first.state.executions.find executionId = some old →
      last.state.executions.find executionId = some new →
      new.source = old.source ∧ new.cellId = old.cellId ∧ new.seq = old.seq ∧
        new.submittedByActorLabel = old.submittedByActorLabel) ∧
    KeepsHostFields first last ∧
    (∀ executionId old new, seen.state.executions.find executionId = some old →
      isTerminal old.status = true → last.state.executions.find executionId = some new →
      new.status = old.status ∧ new.success = old.success ∧
        new.executionCount = old.executionCount ∧ KeepsOutputs old.outputs new.outputs) ∧
    ∀ sessionId old, seen.state.bokehSessions.find sessionId = some old →
      ∃ new, last.state.bokehSessions.find sessionId = some new ∧ old.epoch ≤ new.epoch ∧
        sameProvenance old new = true ∧ (old.status = .Closed → new = old) := by
  have ha := updates_keep (he.append hl)
  have hlater := updates_keep hl
  refine ⟨ha.ids, fun executionId old new ho hn => ?_, ha.host,
    fun executionId old new ho ht hn => ?_, fun sessionId old ho => ?_⟩
  · have hk := ha.executions executionId old new ho hn
    exact ⟨hk.source, hk.cellId, hk.seq, hk.submittedByActorLabel⟩
  · exact (hlater.executions executionId old new ho hn).terminal ht
  · obtain ⟨new, hn, hk⟩ := hlater.sessions sessionId old ho
    exact ⟨new, hn, hk.epoch, hk.provenance, hk.closed⟩

end Updates

def sampleSnapshot (execution : ExecutionState Nat) : RuntimeStatePolicySnapshot Nat Unit where
  state :=
    { runtimeStateDocId := none
      kernel := ()
      queue := ⟨none, []⟩
      env := ()
      trust := ()
      lastSaved := none
      fileCheckpoint := ()
      projectTrust := ()
      path := some "/docs/a.ipynb"
      executions := empty.add "run" execution
      comms := .empty
      bokehSessions := .empty
      projectContext := ()
      workstation := none }
  rootKeys := ["executions"]
  displayIndex := none
  localEnvironmentIdentity := []

def sampleExecution (status : String) (success : Option Bool) (outputs : List (JsonValue Nat)) :
    ExecutionState Nat :=
  ⟨status, some 1, success, outputs, some "display(1)", some "cell", some 0, none⟩

def displayHandle (payload : Nat) : JsonValue Nat :=
  .Object [("data", .Object [("text/plain", .Number payload)]), ("metadata", .Object []),
    ("output_id", .Str "out"), ("output_type", .Str "display_data"),
    ("transient", .Object [("display_id", .Str "handle")])]

theorem sample_spares (hs : execution.status ≠ "cancelled")
    (next : RuntimeStatePolicySnapshot Nat Unit) :
    SparesCancelled (sampleSnapshot execution) next := by
  intro executionId earlier later he hc
  have hf : (sampleSnapshot execution).state.executions.find executionId =
      if executionId = "run" then some execution else none :=
    find_add "run" executionId execution .empty
  rw [hf] at he
  split at he
  · obtain rfl := some.inj he
    exact absurd hc hs
  · cases he

-- An execution ends, and its display handle is updated afterwards.
theorem display_updated_after_end :
    let running := sampleSnapshot (sampleExecution "running" none [])
    let done := sampleSnapshot (sampleExecution "done" (some true) [displayHandle 1])
    let updated := sampleSnapshot (sampleExecution "done" (some true) [displayHandle 2])
    Run PeerUpdate running [done, updated] updated ∧ KeepsHostFields running updated ∧
      KeepsOutputs [displayHandle 1] [displayHandle 2] := by
  intro running done updated
  have hr : SparesCancelled running done := sample_spares (by decide) done
  have hd : SparesCancelled done updated := sample_spares (by decide) updated
  have hf : validateRuntimeStateSyncScope .RuntimePeer running done = .ok () := by
    decide +kernel
  have hn : validateRuntimeStateSyncScope .RuntimePeer done updated = .ok () := by
    decide +kernel
  have hl := peer_stays_in_lane (.cons ⟨hr, rfl, hf⟩ (.nil done))
    (.cons ⟨hd, rfl, hn⟩ (.nil updated))
  have hk := hl.2.2.2.1 "run" (sampleExecution "done" (some true) [displayHandle 1])
    (sampleExecution "done" (some true) [displayHandle 2]) rfl rfl rfl
  exact ⟨.cons ⟨rfl, hf⟩ (.cons ⟨rfl, hn⟩ (.nil updated)), hl.2.2.1, hk.2.2.2⟩

-- The result of a cancelled execution is written and its outputs are removed.
theorem cancelled_result_written :
    let cancelled := sampleSnapshot (sampleExecution "cancelled" none [displayHandle 1])
    let rewritten := sampleSnapshot (sampleExecution "cancelled" (some true) [])
    Run PeerUpdate cancelled [rewritten] rewritten ∧ isTerminal "cancelled" = true ∧
      cancelled.state.executions.find "run" =
        some (sampleExecution "cancelled" none [displayHandle 1]) ∧
      rewritten.state.executions.find "run" = some (sampleExecution "cancelled" (some true) []) ∧
      ¬ KeepsOutputs [displayHandle 1] [] := by
  intro cancelled rewritten
  refine ⟨.cons ⟨rfl, by decide +kernel⟩ (.nil rewritten), by decide, rfl, rfl, fun hk => ?_⟩
  obtain ⟨_, hl, -⟩ := hk 0 (displayHandle 1) rfl
  cases hl

end Nteract.RuntimePolicy
