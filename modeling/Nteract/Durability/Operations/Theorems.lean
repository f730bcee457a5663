import Nteract.Durability.Operations

namespace Nteract.Durability

open Lib.Causal Recovery Automerge Finset

variable {automerge : Automerge}

theorem loadSnapshot_eq_ok :
    loadSnapshot automerge snapshot = .ok document ↔ automerge.load snapshot = .ok document := by
  unfold loadSnapshot
  cases automerge.load snapshot <;> simp [Except.mapError]

@[simp] theorem loadSnapshot_save (document : Document) :
    loadSnapshot automerge (automerge.save document) = .ok document :=
  loadSnapshot_eq_ok.mpr (automerge.load_save document)

theorem nextSequence_eq_ok (hn : nextSequence value = .ok next) : next = value + 1 := by
  unfold nextSequence at hn
  cases hc : checkedAdd value 1 with
  | none => simp [hc] at hn
  | some =>
    simp only [hc, Except.ok.injEq] at hn
    rw [← hn, (checkedAdd_eq_some.mp hc).2]

def ContainsHeads (automerge : Automerge) (snapshot : Bytes) (heads : List ChangeHash) : Prop :=
  heads = [] ∨ ∃ document, automerge.load snapshot = .ok document ∧
    ∀ head ∈ heads, head ∈ automerge.getChanges document

theorem snapshotContainsHeads_eq_true : snapshotContainsHeads automerge snapshot heads = .ok true ↔
      ContainsHeads automerge snapshot heads := by
  unfold snapshotContainsHeads ContainsHeads
  by_cases hn : heads = []
  · simp [hn]
  · have he : heads.isEmpty = false := by simpa using hn
    simp only [he, hn]
    cases hl : automerge.load snapshot with
    | error =>
      simp [loadSnapshot, hl, Except.mapError]
    | ok =>
      simp [loadSnapshot, hl, Except.mapError, Bind.bind, Except.bind, Pure.pure, Except.pure,
        Automerge.getChangeByHash]

section Merge

variable {base other : Document}

def missingChanges (automerge : Automerge) (other base : Document) : Finset ChangeHash :=
  (automerge.getChanges other).filter fun change => !automerge.getChangeByHash base change

theorem mem_missingChanges :
    change ∈ missingChanges automerge other base ↔
      change ∈ automerge.getChanges other ∧ change ∉ automerge.getChanges base := by
  simp [missingChanges, Automerge.getChangeByHash]

theorem getChanges_subset_merged : automerge.getChanges other ⊆
    base ∪ missingChanges automerge other base := by
  intro change hc
  by_cases hb : change ∈ automerge.getChanges base
  · exact mem_union_left _ (getChanges_subset base hb)
  · exact mem_union_right _ (mem_missingChanges.mpr ⟨hc, hb⟩)

theorem committedSnapshot_daemon (hr : state.hasDurableRecord = true) :
    committedSnapshot automerge state base snapshot durableHeads .Daemon = .ok (committed, heads) ↔
      ∃ other merged, loadSnapshot automerge state.durableSnapshot = .ok other ∧
        automerge.applyChanges base (missingChanges automerge other base) = .ok merged ∧
        automerge.save merged = committed ∧ automerge.getHeads merged = heads := by
  unfold committedSnapshot
  rw [if_pos (by simp [hr])]
  cases hl : loadSnapshot automerge state.durableSnapshot with
  | error => simp [Bind.bind, Except.bind]
  | ok other =>
    simp only [Except.ok.injEq, exists_and_left, exists_eq_left']
    change ((automerge.applyChanges base (missingChanges automerge other base)).mapError _ >>=
      fun merged => .ok (automerge.save merged, automerge.getHeads merged)) = _ ↔ _
    cases automerge.applyChanges base (missingChanges automerge other base) <;>
      simp [Except.mapError, Bind.bind, Except.bind]

theorem committedSnapshot_other (hr : state.hasDurableRecord = false ∨ mutation ≠ .Daemon) :
    committedSnapshot automerge state base snapshot durableHeads mutation =
      .ok (snapshot, durableHeads) := by
  unfold committedSnapshot
  rw [if_neg (by simpa [imp_iff_not_or] using hr)]
  rfl

variable (hm : automerge.applyChanges base (missingChanges automerge other base) = .ok merged)
include hm

theorem merged_eq : merged = base ∪ missingChanges automerge other base :=
  applyChanges_eq_ok hm

theorem getChanges_merged : automerge.getChanges other ⊆ automerge.getChanges merged := by
  rw [merged_eq hm]
  calc automerge.getChanges other
      = automerge.getChanges (automerge.getChanges other) := (settled_idem other).symm
    _ ⊆ automerge.getChanges (base ∪ missingChanges automerge other base) :=
        getChanges_mono getChanges_subset_merged

theorem base_subset_merged : base ⊆ merged := by
  rw [merged_eq hm]
  exact subset_union_left

theorem merge_again :
    automerge.applyChanges base (missingChanges automerge merged base) = .ok merged := by
  rw [← hm]
  apply applyChanges_congr
  ext change
  simp only [mem_sdiff, mem_missingChanges]
  constructor
  · rintro ⟨⟨ha, hn⟩, hb⟩
    have hin := getChanges_subset merged ha
    rw [merged_eq hm, mem_union] at hin
    exact ⟨mem_missingChanges.mp (hin.resolve_left hb), hb⟩
  · rintro ⟨⟨ha, hn⟩, hb⟩
    exact ⟨⟨getChanges_merged hm ha, hn⟩, hb⟩

end Merge

section Batch

variable (hb : applyRetainedChangeBatch automerge document changes = .ok (merged, missing))
include hb

theorem applyRetainedChangeBatch_eq_ok :
    missing = changes.dedup.filter (fun change => !automerge.getChangeByHash document change) ∧
      automerge.applyChanges document missing.toFinset = .ok merged := by
  unfold applyRetainedChangeBatch at hb
  dsimp only at hb
  cases ha : automerge.applyChanges document (changes.dedup.filter fun change =>
      !automerge.getChangeByHash document change).toFinset with
  | error error =>
    rw [ha] at hb
    cases hb
  | ok result =>
    rw [ha] at hb
    cases hb
    exact ⟨rfl, ha⟩

theorem batch_subset : document ⊆ merged ∧ ∀ change ∈ changes, change ∈ merged := by
  obtain ⟨hm, happly⟩ := applyRetainedChangeBatch_eq_ok hb
  have heq := applyChanges_eq_ok happly
  refine ⟨heq ▸ subset_union_left, fun change hc => ?_⟩
  rw [heq, mem_union]
  by_cases ha : change ∈ automerge.getChanges document
  · exact .inl (getChanges_subset document ha)
  · right
    simp [hm, Automerge.getChangeByHash, hc, ha]

theorem batch_again :
    ∃ retained, applyRetainedChangeBatch automerge merged changes = .ok (merged, retained) := by
  have hs : (changes.dedup.filter fun change =>
      !automerge.getChangeByHash merged change).toFinset ⊆ merged := by
    intro change hc
    simp only [List.mem_toFinset, List.mem_filter, List.mem_dedup] at hc
    exact (batch_subset hb).2 change hc.1
  unfold applyRetainedChangeBatch
  dsimp only
  rw [applyChanges_of_subset hs]
  exact ⟨_, rfl⟩

end Batch

section Manifest

variable (manifest : RecoveryManifest)

theorem promote_idem : promoteFullCoverageCheckpointBaseline
    (promoteFullCoverageCheckpointBaseline manifest) =
    promoteFullCoverageCheckpointBaseline manifest := by
  unfold promoteFullCoverageCheckpointBaseline
  split
  · simp
  · rfl

theorem promote_withSequence (sequence : Nat) :
    promoteFullCoverageCheckpointBaseline { manifest with sequence := sequence } =
      { promoteFullCoverageCheckpointBaseline manifest with sequence := sequence } := by
  unfold promoteFullCoverageCheckpointBaseline RecoveryManifest.fileCheckpointCoversDurableHeads
  split_ifs <;> rfl

variable (degraded : Option RoomDegradation)

theorem promoteUnlessDegraded_eq :
    ∃ phase, promoteUnlessDegraded degraded manifest = { manifest with sourcePhase := phase } := by
  unfold promoteUnlessDegraded promoteFullCoverageCheckpointBaseline
  split_ifs
  · exact ⟨_, rfl⟩
  · exact ⟨manifest.sourcePhase, rfl⟩
  · exact ⟨manifest.sourcePhase, rfl⟩

theorem promoteUnlessDegraded_withSequence (sequence : Nat) :
    promoteUnlessDegraded degraded { manifest with sequence := sequence } =
      { promoteUnlessDegraded degraded manifest with sequence := sequence } := by
  unfold promoteUnlessDegraded
  split
  · exact promote_withSequence manifest sequence
  · rfl

theorem promoteUnlessDegraded_idem :
    promoteUnlessDegraded degraded (promoteUnlessDegraded degraded manifest) =
      promoteUnlessDegraded degraded manifest := by
  unfold promoteUnlessDegraded
  split
  · exact promote_idem manifest
  · rfl

theorem snapshotManifest_sequence (sequence : Nat) (durableHeads : List ChangeHash)
    (mutation : DurableMutation) :
    (snapshotManifest manifest sequence durableHeads mutation).sequence = sequence := by
  unfold snapshotManifest
  cases mutation <;> rfl

theorem fileCheckpoint_reflected (checkpoint : PendingFileCheckpoint) :
    mutationIsAlreadyReflected (applyMutationToManifest manifest (.FileCheckpoint checkpoint))
      (.FileCheckpoint checkpoint) = true := by
  have hgeneration : ∀ generation ∈ checkpoint.sourceGeneration,
      checkpoint.sourceGeneration.getD manifest.sourceGeneration = generation := by
    intro generation hg
    rw [Option.mem_def.mp hg, Option.getD_some]
  simpa [mutationIsAlreadyReflected, applyMutationToManifest] using hgeneration

theorem resolvedManifest_kept {manifest resolved : RecoveryManifest}
    (hr : resolvedManifest manifest pending fingerprint = .ok resolved) :
    resolved.pendingFileCheckpoint = none ∧ resolved.sequence = manifest.sequence ∧
      resolved.durableHeads = manifest.durableHeads ∧ resolved.sourceFingerprint = fingerprint := by
  unfold resolvedManifest at hr
  split_ifs at hr with hn ho
  · cases hr
    exact ⟨rfl, rfl, rfl, hn.symm⟩
  · cases hr
    exact ⟨rfl, rfl, rfl, ho.symm⟩

end Manifest

variable {state : DurabilityState}

theorem promotedManifest_eq_ok (hm : promotedManifest automerge state = .ok promoted) :
    (state.manifest.sourcePhase = .Pending → promoted.sequence = state.manifest.sequence + 1) ∧
      promoted.durableHeads = state.manifest.durableHeads ∧
      promoted.exportedHeads = state.manifest.exportedHeads ∧
      promoted.pendingFileCheckpoint = state.manifest.pendingFileCheckpoint := by
  unfold promotedManifest at hm
  split_ifs at hm with hp
  · cases hl : loadSnapshot automerge state.durableSnapshot <;>
      cases hs : nextSequence state.manifest.sequence <;>
      cases hg : nextSequence state.manifest.sourceGeneration <;>
      simp [hl, hs, hg, Bind.bind, Except.bind, Pure.pure, Except.pure] at hm
    rw [← hm]
    exact ⟨fun _ => nextSequence_eq_ok hs, rfl, rfl, rfl⟩
  · cases hm
    exact ⟨fun h => absurd h hp, rfl, rfl, rfl⟩

theorem checkpointReflected_pending (hr : checkpointReflected state checkpoint = true) :
    state.manifest.pendingFileCheckpoint = none := by
  simp only [checkpointReflected, mutationIsAlreadyReflected, Bool.and_eq_true,
    decide_eq_true_eq] at hr
  exact hr.2.2.2.2.2.2

theorem checkpointManifest_eq (state : DurabilityState) (checkpoint : PendingFileCheckpoint) :
    ∃ phase, checkpointManifest state checkpoint =
      { (if checkpointReflected state checkpoint then state.manifest
        else applyMutationToManifest state.manifest (.FileCheckpoint checkpoint)) with
        sourcePhase := phase } :=
  promoteUnlessDegraded_eq _ state.degraded

theorem checkpointReflected_withSequence (sequence : Nat) : checkpointReflected { state with
      manifest := { checkpointManifest state checkpoint with sequence := sequence }
      hasDurableRecord := true } checkpoint = true := by
  obtain ⟨_, hp⟩ := checkpointManifest_eq state checkpoint
  rw [hp]
  by_cases hr : checkpointReflected state checkpoint = true
  · rw [if_pos hr]
    simp only [checkpointReflected, Bool.and_eq_true] at hr
    simpa [checkpointReflected, mutationIsAlreadyReflected] using hr.2
  · rw [if_neg hr]
    simpa [checkpointReflected, mutationIsAlreadyReflected] using
      fileCheckpoint_reflected state.manifest checkpoint

theorem checkpointManifest_again (sequence : Nat) : checkpointManifest { state with
      manifest := { checkpointManifest state checkpoint with sequence := sequence }
      hasDurableRecord := true } checkpoint =
      { checkpointManifest state checkpoint with sequence := sequence } := by
  rw [checkpointManifest, if_pos (checkpointReflected_withSequence sequence)]
  rw [promoteUnlessDegraded_withSequence]
  simp [checkpointManifest, promoteUnlessDegraded_idem]

theorem checkpointManifest_kept :
    (checkpointManifest state checkpoint).sequence = state.manifest.sequence ∧
      (checkpointManifest state checkpoint).durableHeads = state.manifest.durableHeads := by
  obtain ⟨_, hp⟩ := checkpointManifest_eq state checkpoint
  rw [hp]
  split <;> exact ⟨rfl, rfl⟩

end Nteract.Durability
