import Nteract.Durability.FailedCommits
import Nteract.Lib.Transition

namespace Nteract.Durability

open Lib.Effect Lib.Transition Recovery

variable {automerge : Automerge} {serde : ManifestSerde} {io : JournalIo} {op : Operation}
  {room : RoomDurability}

-- The first snapshot is taken with its caller's heads, which must be its own.
def Retryable (automerge : Automerge) (state : DurabilityState) : Operation → Prop
  | .CommitSnapshot snapshot durableHeads mutation => mutation = .Daemon ∧
      (state.hasDurableRecord = false → ∀ candidate,
        loadSnapshot automerge snapshot = .ok candidate →
          durableHeads = automerge.getHeads candidate)
  | .PromoteToJournal _ | .ArchiveAndCommitReconciledSource _ _ _ _ _ _ _
  | .CommitExternalSourceRevision _ _ _ _ => False
  | _ => True

section Retry

variable {state : DurabilityState}

theorem daemonSnapshot_again (next : DurabilityState)
    (hl : loadSnapshot automerge snapshot = .ok candidate)
    (hc : committedSnapshot automerge state candidate snapshot durableHeads .Daemon = .ok
      (committed, heads))
    (he : state.hasDurableRecord = false → durableHeads = automerge.getHeads candidate)
    (hnext : next.durableSnapshot = committed) (hr : next.hasDurableRecord = true) :
    ∃ again, committedSnapshot automerge next candidate snapshot durableHeads .Daemon =
      .ok (again, heads) := by
  simp only [committedSnapshot_daemon hr, hnext]
  cases hf : state.hasDurableRecord with
  | true =>
    obtain ⟨_, merged, _, hmerge, rfl, rfl⟩ := (committedSnapshot_daemon hf).mp hc
    exact ⟨_, merged, merged, loadSnapshot_save merged, merge_again hmerge, rfl, rfl⟩
  | false =>
    -- The candidate is the durable document now, so nothing is missing.
    rw [committedSnapshot_other (.inl hf)] at hc
    cases hc
    have hn : missingChanges automerge candidate candidate ⊆ candidate := fun change hm =>
      absurd (mem_missingChanges.mp hm).1 (mem_missingChanges.mp hm).2
    exact ⟨_, candidate, candidate, hl, Automerge.applyChanges_of_subset hn, rfl, (he hf).symm⟩

theorem skips_of_records (ha : room.acceptingCommits = true)
    (hr : Records automerge op room.state next) (hretry : Retryable automerge room.state op) :
    ∃ status, Skips automerge op (room.publishing next journal) status := by
  cases hr with
  | promote | archive | externalSource => exact hretry.elim
  | snapshot hl hc =>
    obtain ⟨rfl, he⟩ := hretry
    obtain ⟨_, hagain⟩ := daemonSnapshot_again ⟨_, _, true, none⟩ hl hc
      (fun hf => he hf _ hl) rfl rfl
    exact ⟨_, .snapshot ha hl hagain rfl rfl rfl⟩
  | stagedSource hl hin _ hm =>
    refine ⟨_, .stagedSource ha hl hin rfl ?_ rfl ?_⟩
    · simp [RoomDurability.publishing, mutationIsAlreadyReflected, applyMutationToManifest]
    · exact snapshotContainsHeads_eq_true.mpr (.inr ⟨_, automerge.load_save _,
        fun head hh => getChanges_merged hm (hin head hh)⟩)
  | sourceReady => exact ⟨_, .sourceReady ha rfl rfl rfl⟩
  | prepare hc => exact ⟨_, .prepare ha hc rfl⟩
  | abort => exact ⟨_, .abort ha rfl⟩
  | resolve _ hres =>
    obtain ⟨_, hphase⟩ := promoteUnlessDegraded_eq _ room.state.degraded
    rw [hphase]
    exact ⟨_, .resolve ha (resolvedManifest_kept hres).1⟩
  | checkpoint hc =>
    exact ⟨_, .checkpoint ha hc (checkpointReflected_withSequence _) (checkpointManifest_again _)⟩
  | @peerChanges _ changes merged _ _ _ hl hb hs =>
    by_cases hn : changes = []
    · subst hn
      exact ⟨_, .noPeerChanges ha⟩
    · obtain ⟨_, hagain⟩ := batch_again hb
      exact ⟨_, .peerChanges ha hn (loadSnapshot_save merged) hagain (.inr rfl)⟩

-- A promotion writes down the manifest the room has, unless its source is pending.
def Rebinds (state : DurabilityState) : Operation → Prop
  | .PromoteToJournal _ => state.manifest.sourcePhase ≠ .Pending
  | _ => False

theorem records_sequence (hr : Records automerge op state next) (hn : ¬ Rebinds state op) :
    next.manifest.sequence = state.manifest.sequence + 1 := by
  cases hr with
  | promote _ _ hm => exact (promotedManifest_eq_ok hm).1 (not_not.mp hn)
  | snapshot _ _ _ hs =>
    rw [snapshotManifest_sequence]
    exact nextSequence_eq_ok hs
  | stagedSource _ _ _ _ hs => exact nextSequence_eq_ok hs
  | sourceReady _ _ hs | prepare _ _ hs | archive _ _ hs | peerChanges _ _ hs => exact nextSequence_eq_ok hs
  | abort _ hs => exact nextSequence_eq_ok hs
  | @resolve _ _ resolved _ _ _ hres hs =>
    obtain ⟨_, hp⟩ := promoteUnlessDegraded_eq resolved state.degraded
    rw [hp] at hs
    rw [← (resolvedManifest_kept hres).2.1]
    exact nextSequence_eq_ok hs
  | checkpoint _ _ hs =>
    rw [checkpointManifest_kept.1] at hs
    exact nextSequence_eq_ok hs
  | externalSource _ _ _ hs => exact nextSequence_eq_ok hs

theorem records_rebinds (hr : Records automerge op state next) (hn : Rebinds state op) :
    next.manifest = state.manifest := by
  cases hr with
  | promote _ _ hm =>
    rw [promotedManifest, if_neg hn] at hm
    cases hm
    rfl
  | _ => exact hn.elim

end Retry

def Ordered (op : Operation) (room : RoomDurability) (outcome : DurableCommitOutcome)
    (after : RoomDurability) : Prop :=
  match outcome with
  | .AlreadyDurable _ => after = room
  | .Committed _ =>
    (Rebinds room.state op → after.state.manifest = room.state.manifest) ∧
      (¬ Rebinds room.state op →
        after.state.manifest.sequence = room.state.manifest.sequence + 1)

variable {after : RoomDurability}

theorem callOk_retry (hc : CallOk automerge serde io op room outcome after)
    (hretry : Retryable automerge room.state op) (again : JournalIo) :
    ∃ status, call automerge serde again op after = .ok (.AlreadyDurable status) after := by
  cases hc with
  | already hs => exact ⟨_, call_of_skips hs⟩
  | committed ha hr =>
    obtain ⟨status, hs⟩ := skips_of_records ha hr hretry
    exact ⟨status, call_of_skips hs⟩

theorem callOk_ordered (hc : CallOk automerge serde io op room outcome after) :
    Ordered op room outcome after := by
  cases hc with
  | already => rfl
  | committed _ hr => exact ⟨records_rebinds hr, records_sequence hr⟩

def Operation.promotes : Operation → Bool
  | .PromoteToJournal _ => true
  | _ => false

theorem callStep_sequence (hs : CallStep automerge serde room event after)
    (hp : event.op.promotes = false) : after.state.manifest.sequence =
      room.state.manifest.sequence + if event.commits then 1 else 0 := by
  cases hs with
  | error hc => simp [callError_manifest (call_error hc), CallEvent.commits]
  | @ok io op _ outcome _ hc =>
    have ho := callOk_ordered (call_ok hc)
    cases outcome with
    | AlreadyDurable =>
      simp [show after = room from ho, CallEvent.commits, DurableCommitOutcome.isCommitted]
    | Committed =>
      have hr : ¬ Rebinds room.state op := by
        cases op <;> simp_all [Rebinds, Operation.promotes]
      simp [ho.2 hr, CallEvent.commits, DurableCommitOutcome.isCommitted]

theorem run_sequence (hr : Run (CallStep automerge serde) first events last)
    (hp : ∀ event ∈ events, event.op.promotes = false) :
    last.state.manifest.sequence =
      first.state.manifest.sequence + events.countP CallEvent.commits := by
  induction hr with
  | nil => rfl
  | @cons _ _ _ event events hs _ ih =>
    have hf := callStep_sequence hs (hp event (.head _))
    have hrest := ih fun other ho => hp other (.tail _ ho)
    rw [hrest, List.countP_cons]
    omega

-- A repeated commit makes no new record, and the sequence counts commits.
theorem commits_idempotent_and_ordered (automerge : Automerge) (serde : ManifestSerde) :
    (∀ (io : JournalIo) (op : Operation) (room : RoomDurability),
      Post (call automerge serde io op) room
        (fun outcome after => Ordered op room outcome after ∧
          (Retryable automerge room.state op → ∀ again, ∃ status,
            call automerge serde again op after = .ok (.AlreadyDurable status) after))
        (fun _ after => after.state.manifest = room.state.manifest)) ∧
    ∀ (first last : RoomDurability) (events : List CallEvent),
      Run (CallStep automerge serde) first events last →
      (∀ event ∈ events, event.op.promotes = false) →
      last.state.manifest.sequence =
        first.state.manifest.sequence + events.countP CallEvent.commits := by
  refine ⟨fun io op room => ?_, fun first last events hr hp => run_sequence hr hp⟩
  exact (callPost automerge serde room io op).imp
    (fun outcome after hc => ⟨callOk_ordered hc, callOk_retry hc⟩)
    (fun error after hc => callError_manifest hc)

theorem commits_idempotent_peer : ∃ outcome after status,
    call (referenceAutomerge fun _ => []) sampleSerde (.works 1) (.CommitPeerChanges [5])
      (volatile 1 (referenceSave ∅) []) = .ok outcome after ∧ outcome.isCommitted = true ∧
    call (referenceAutomerge fun _ => []) sampleSerde (.works 2) (.CommitPeerChanges [5]) after =
      .ok (.AlreadyDurable status) after := by
  have hy : yields (call (referenceAutomerge fun _ => []) sampleSerde (.works 1)
      (.CommitPeerChanges [5])) (volatile 1 (referenceSave ∅) [])
      (fun outcome _ => outcome.isCommitted) = true := by decide +kernel
  obtain ⟨outcome, after, hcall, hc⟩ := exists_of_yields hy
  have hp := (commits_idempotent_and_ordered (referenceAutomerge fun _ => []) sampleSerde).1
    (.works 1) (.CommitPeerChanges [5]) (volatile 1 (referenceSave ∅) [])
  obtain ⟨status, ha⟩ := (hp.of_ok hcall).2 trivial (.works 2)
  exact ⟨outcome, after, status, hcall, hc, ha⟩

-- The checkpoint covers the heads, so the promotion changes nothing.
def savedManifest : RecoveryManifest :=
  { RecoveryManifest.new 1 1 (some "/docs/a.ipynb") SCHEMA_VERSION 9 0 with
    sourcePhase := .DurablyStaged
    durableHeads := [5]
    exportedHeads := [5]
    fileSaveSequence := some 1 }

-- A first snapshot of an empty document, declared to have the head 5.
def misdeclaredManifest (sequence : Nat) (heads : List ChangeHash) : RecoveryManifest :=
  { RecoveryManifest.new sequence 1 (some "/docs/a.ipynb") SCHEMA_VERSION 9 0 with
    durableHeads := heads }

def retrySerde : ManifestSerde :=
  knownSerde [savedManifest, misdeclaredManifest 1 [5], misdeclaredManifest 2 []]
    (by decide +kernel)

-- The promotion keeps the sequence, and a first snapshot whose declared heads are not its own
-- commits again.
theorem promotion_keeps_sequence_and_misdeclared_snapshot_repeats :
    (∃ saving saved promoting promoted,
      call (referenceAutomerge fun _ => []) retrySerde (.works 1)
        (.CommitFileCheckpoint ⟨"/docs/a.ipynb", 9, [5], 1, none⟩)
        (volatile 1 (referenceSave {5}) [5]) = .ok saving saved ∧
      call (referenceAutomerge fun _ => []) retrySerde (.works 2)
        (.PromoteToJournal (.new "/docs/a.recovery" none)) saved = .ok promoting promoted ∧
      promoting.isCommitted = true ∧
      promoted.state.manifest.sequence = saved.state.manifest.sequence) ∧
    ∃ outcome after repeated again,
      call (referenceAutomerge fun _ => []) retrySerde (.works 1)
        (.CommitSnapshot (referenceSave ∅) [5] .Daemon)
        (journaled (.new "/docs/a.recovery" none) 1 (some "/docs/a.ipynb") 9 0 (referenceSave ∅)) =
          .ok outcome after ∧
      call (referenceAutomerge fun _ => []) retrySerde (.works 2)
        (.CommitSnapshot (referenceSave ∅) [5] .Daemon) after = .ok repeated again ∧
      repeated.isCommitted = true ∧
      again.state.manifest.sequence = after.state.manifest.sequence + 1 := by
  constructor
  · have hyields : yields (call (referenceAutomerge fun _ => []) retrySerde (.works 1)
        (.CommitFileCheckpoint ⟨"/docs/a.ipynb", 9, [5], 1, none⟩))
        (volatile 1 (referenceSave {5}) [5]) (fun _ saved =>
          yields (call (referenceAutomerge fun _ => []) retrySerde (.works 2)
            (.PromoteToJournal (.new "/docs/a.recovery" none))) saved fun promoting promoted =>
              promoting.isCommitted &&
                promoted.state.manifest.sequence == saved.state.manifest.sequence) = true := by
      decide +kernel
    obtain ⟨saving, saved, hsave, hyields⟩ := exists_of_yields hyields
    obtain ⟨promoting, promoted, hpromote, htest⟩ := exists_of_yields hyields
    simp only [Bool.and_eq_true, beq_iff_eq] at htest
    exact ⟨saving, saved, promoting, promoted, hsave, hpromote, htest⟩
  · have hyields : yields (call (referenceAutomerge fun _ => []) retrySerde (.works 1)
        (.CommitSnapshot (referenceSave ∅) [5] .Daemon)) (journaled (.new "/docs/a.recovery" none) 1
          (some "/docs/a.ipynb") 9 0 (referenceSave ∅)) (fun _ after =>
          yields (call (referenceAutomerge fun _ => []) retrySerde (.works 2)
            (.CommitSnapshot (referenceSave ∅) [5] .Daemon)) after fun repeated again =>
              repeated.isCommitted &&
                again.state.manifest.sequence == after.state.manifest.sequence + 1) = true := by
      decide +kernel
    obtain ⟨outcome, after, hfirst, hyields⟩ := exists_of_yields hyields
    obtain ⟨repeated, again, hsecond, htest⟩ := exists_of_yields hyields
    simp only [Bool.and_eq_true, beq_iff_eq] at htest
    exact ⟨outcome, after, repeated, again, hfirst, hsecond, htest⟩

end Nteract.Durability
