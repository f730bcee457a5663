import Nteract.Durability.Calls
import Nteract.Durability.Operations.Theorems

namespace Nteract.Durability

open Lib.Effect Recovery

variable {automerge : Automerge} {serde : ManifestSerde} {room : RoomDurability}

@[simp] theorem post_ensureAcceptingCommits (ok : Unit → RoomDurability → Prop)
    (error : RoomDurabilityError → RoomDurability → Prop) :
    Post ensureAcceptingCommits room ok error ↔ (room.acceptingCommits = true → ok () room) ∧
        (room.acceptingCommits = false → error .ShutdownInProgress room) := by
  unfold ensureAcceptingCommits
  simp only [post_bind, post_get]
  cases room.acceptingCommits <;> simp

@[simp] theorem post_degradeJournal (failure : RecoveryJournalError)
    (ok : α → RoomDurability → Prop) (error : RoomDurabilityError → RoomDurability → Prop) :
    Post (degradeJournal failure) room ok error ↔
      error (.Journal failure) (room.degrading failure room.journal) := Iff.rfl

@[simp] theorem post_publish (next : DurabilityState)
    (ok : DurableCommitOutcome → RoomDurability → Prop)
    (error : RoomDurabilityError → RoomDurability → Prop) :
    Post (publish next) room ok error ↔
      ok (.Committed (statusFromState next)) (room.publishing next room.journal) := Iff.rfl

@[simp] theorem post_commitState (io : AppendIo) (next : DurabilityState)
    (ok : DurableCommitOutcome → RoomDurability → Prop)
    (error : RoomDurabilityError → RoomDurability → Prop) :
    Post (commitState serde io next) room ok error ↔
      (∀ journal, Appended serde io next room.journal journal →
        ok (.Committed (statusFromState next)) (room.publishing next journal)) ∧
      ∀ failure journal, AppendFailed serde io next room.journal failure journal →
        error (.Journal failure) (room.degrading failure (some journal)) := by
  unfold commitState appendRecord
  simp only [post_bind, post_get]
  cases hj : room.journal with
  | none =>
    simp only [post_pure, post_publish, hj, Appended, AppendFailed]
    simp
  | some journal =>
    cases ha : append serde io next.manifest next.durableSnapshot journal with
    | ok =>
      simp [Appended, AppendFailed, ha, RoomDurability.publishing]
    | error =>
      simp [Appended, AppendFailed, ha, RoomDurability.degrading]

theorem mapError_eq_ok {ε ε' α : Type} {result : Except ε α} {change : ε → ε'} {value : α}
    (hm : result.mapError change = .ok value) : result = .ok value := by
  cases result with
  | error => cases hm
  | ok => simpa [Except.mapError] using hm

section Operations

variable (automerge serde room) (io : JournalIo)

def CallPost (op : Operation) : Prop :=
  Post (call automerge serde io op) room (CallOk automerge serde io op room)
    (CallError automerge serde io op room)

section Rejections

variable {automerge serde room io} {α : Type}

theorem rejects_throw (error : RoomDurabilityError) :
    Post (throw error) room ok (CallError automerge serde io op room) ↔ True :=
  iff_true_intro (.rejected error)

theorem rejects_ofExcept (result : Except RoomDurabilityError α) :
    Post (ofExcept result) room ok (CallError automerge serde io op room) ↔
      ∀ value, result = .ok value → ok value room := by
  rw [post_ofExcept]
  exact and_iff_left fun error _ => .rejected error

theorem rejects_ensureAcceptingCommits :
    Post ensureAcceptingCommits room ok (CallError automerge serde io op room) ↔
      (room.acceptingCommits = true → ok () room) := by
  rw [post_ensureAcceptingCommits]
  exact and_iff_left fun _ => .rejected _

theorem commitState_records (haccept : room.acceptingCommits = true)
    (hr : Records automerge op room.state next)
    (hok : Recorded serde io op room next = Appended serde io.append next room.journal)
    (hfailed : RecordFailed serde io op room next = fun error after => ∃ failed, AppendFailed
      serde io.append next room.journal error failed ∧ after = room.degrading error (some failed)) :
    Post (commitState serde io.append next) room (CallOk automerge serde io op room)
      (CallError automerge serde io op room) := by
  rw [post_commitState]
  refine ⟨fun journal ha => .committed haccept hr (hok ▸ ha), fun failure journal hf =>
    .journal haccept hr ?_⟩
  rw [hfailed]
  exact ⟨journal, hf, rfl⟩

end Rejections

theorem callPost_abort (saveSequence : Nat) :
    CallPost automerge serde room io (.AbortFileCheckpoint saveSequence) := by
  unfold CallPost call abortFileCheckpoint
  simp only [post_bind, rejects_ensureAcceptingCommits, post_get]
  intro ha
  cases hp : room.state.manifest.pendingFileCheckpoint with
  | none => exact .already (.abort ha hp)
  | some =>
    simp only [post_ite, rejects_throw, implies_true, true_and, post_bind, rejects_ofExcept]
    intro hseq sequence hs
    have hr : Records automerge _ _ _ := .abort hp hs
    rw [not_not.mp hseq] at hr
    exact commitState_records ha hr rfl rfl

theorem callPost_prepare (pending : PendingFileCheckpoint) :
    CallPost automerge serde room io (.PrepareFileCheckpoint pending) := by
  unfold CallPost call prepareFileCheckpoint
  simp only [post_bind, rejects_ensureAcceptingCommits, post_get, rejects_ofExcept, post_ite,
    rejects_throw, implies_true, true_and]
  intro ha contains hc hcontains
  have hc : snapshotContainsHeads automerge room.state.durableSnapshot pending.exportedHeads =
      .ok true := by simpa [hc] using hcontains
  refine ⟨fun hp => .already (.prepare ha hc hp), fun _ => ?_⟩
  cases hp : room.state.manifest.pendingFileCheckpoint with
  | some => exact .rejected _
  | none =>
    simp only [post_bind, rejects_ofExcept]
    intro sequence hs
    exact commitState_records ha (Records.prepare hc hp hs) rfl rfl

theorem callPost_sourceReady (generation : Nat) :
    CallPost automerge serde room io (.CommitSourceReady generation) := by
  unfold CallPost call commitSourceReady
  simp only [post_bind, rejects_ensureAcceptingCommits, post_get, rejects_ofExcept, post_ite,
    rejects_throw, implies_true, true_and]
  intro ha hg
  refine ⟨fun hskip => ?_, fun _ hp sequence hs => ?_⟩
  · simp only [mutationIsAlreadyReflected, Bool.and_eq_true, decide_eq_true_eq] at hskip
    exact .already (.sourceReady ha hskip.1 hskip.2.1 hskip.2.2)
  · exact commitState_records ha (Records.sourceReady (not_not.mp hg) (not_not.mp hp) hs) rfl rfl

theorem callPost_resolve (fingerprint : SourceFingerprint) :
    CallPost automerge serde room io (.ResolveRecoveredFileCheckpoint fingerprint) := by
  unfold CallPost call resolveRecoveredFileCheckpoint
  simp only [post_bind, rejects_ensureAcceptingCommits, post_get]
  intro ha
  cases hp : room.state.manifest.pendingFileCheckpoint with
  | none => exact .already (.resolve ha hp)
  | some =>
    simp only [post_bind, rejects_ofExcept]
    intro resolved hr sequence hs
    exact commitState_records ha (Records.resolve hp hr hs) rfl rfl

theorem callPost_snapshot (snapshot : Bytes) (durableHeads : List ChangeHash)
    (mutation : DurableMutation) :
    CallPost automerge serde room io (.CommitSnapshot snapshot durableHeads mutation) := by
  unfold CallPost call commitSnapshot
  simp only [post_bind, rejects_ensureAcceptingCommits, post_get, rejects_ofExcept, post_ite]
  rintro ha _ hl ⟨_, _⟩ hc
  refine ⟨fun hskip => ?_, fun hn sequence hs => ?_⟩
  · simp only [Bool.and_eq_true, decide_eq_true_eq] at hskip
    exact .already (.snapshot ha hl hc hskip.1.1 hskip.1.2 hskip.2)
  · simp only [Bool.and_eq_true, decide_eq_true_eq, and_assoc] at hn
    exact commitState_records ha (Records.snapshot hl hc hn hs) rfl rfl

theorem callPost_stagedSource (stagedSnapshot : Bytes) (stagedHeads : List ChangeHash)
    (generation : Nat) (fingerprint : SourceFingerprint) (stagedChangeHashes : List ChangeHash) :
    CallPost automerge serde room io (.CommitStagedSource stagedSnapshot stagedHeads generation
      fingerprint stagedChangeHashes) := by
  unfold CallPost call commitStagedSource
  simp only [post_bind, rejects_ensureAcceptingCommits, post_get, rejects_ofExcept, post_ite,
    rejects_throw, implies_true, true_and]
  intro ha staged hl hh
  have hh : ∀ head ∈ stagedHeads, head ∈ automerge.getChanges staged := by
    simpa [Automerge.getChangeByHash] using hh
  refine ⟨fun hskip contains hc => ⟨fun hcontains => ?_, fun _ => ?_⟩, fun _ => ?_⟩
  · simp only [Bool.and_eq_true, decide_eq_true_eq] at hskip
    rw [hcontains] at hc
    exact .already (.stagedSource ha hl hh hskip.1.1 hskip.1.2 hskip.2 hc)
  all_goals
    intro durable hd merged hm sequence hs
    exact commitState_records ha (Records.stagedSource hl hh hd (mapError_eq_ok hm) hs) rfl rfl

theorem callPost_checkpoint (checkpoint : PendingFileCheckpoint) :
    CallPost automerge serde room io (.CommitFileCheckpoint checkpoint) := by
  unfold CallPost call commitFileCheckpointWithGeneration
  simp only [post_bind, rejects_ensureAcceptingCommits, post_get, rejects_ofExcept, post_ite,
    rejects_throw, implies_true, true_and]
  intro ha contains hc hcontains
  have hc : snapshotContainsHeads automerge room.state.durableSnapshot checkpoint.exportedHeads =
      .ok true := by simpa [hc] using hcontains
  have hskip : (checkpointReflected room.state checkpoint &&
      decide (checkpointManifest room.state checkpoint = room.state.manifest)) = true →
      Skips automerge (.CommitFileCheckpoint checkpoint) room (statusFromState room.state) := by
    intro hs
    simp only [Bool.and_eq_true, decide_eq_true_eq] at hs
    exact .checkpoint ha hc hs.1 hs.2
  cases hp : room.state.manifest.pendingFileCheckpoint with
  | some =>
    simp only [post_ite, post_bind, rejects_throw, implies_true, true_and, rejects_ofExcept]
    refine fun heq => ⟨fun hs => .already (hskip hs), fun _ sequence hs => ?_⟩
    have hr := Records.checkpoint hc (fun other ho => by
      rw [hp, Option.some.injEq] at ho
      exact ho ▸ not_not.mp heq) hs
    exact commitState_records ha hr rfl rfl
  | none =>
    simp only [post_ite, post_bind, rejects_ofExcept]
    refine ⟨fun hs => .already (hskip hs), fun _ sequence hs => ?_⟩
    have hr := Records.checkpoint hc (fun other ho => by rw [hp] at ho; cases ho) hs
    exact commitState_records ha hr rfl rfl

theorem callPost_peerChanges (changes : List ChangeHash) :
    CallPost automerge serde room io (.CommitPeerChanges changes) := by
  unfold CallPost call commitPeerChanges
  simp only [post_bind, rejects_ensureAcceptingCommits, post_get, rejects_ofExcept, post_ite]
  refine fun ha => ⟨fun hempty => ?_, fun hne durable hl => ?_⟩
  · rw [List.isEmpty_iff.mp hempty]
    exact .already (.noPeerChanges ha)
  · rintro ⟨_, _⟩ hb
    have hne : changes ≠ [] := fun he => hne (by rw [he]; rfl)
    refine ⟨fun hn => ?_, fun _ => ⟨fun hsame => ?_, fun _ sequence hs => ?_⟩⟩
    · exact .already (.peerChanges ha hne hl hb (.inl (List.isEmpty_iff.mp hn)))
    · exact .already (.peerChanges ha hne hl hb (.inr hsame))
    · exact commitState_records ha (Records.peerChanges hl hb hs) rfl rfl

theorem callPost_externalSource (changes : List ChangeHash) (observedSource : SourceFingerprint)
    (canonicalPath : PathBuf) (saveSequence : Nat) :
    CallPost automerge serde room io
      (.CommitExternalSourceRevision changes observedSource canonicalPath saveSequence) := by
  unfold CallPost call commitExternalSourceRevision
  simp only [post_bind, rejects_ensureAcceptingCommits, post_get, rejects_ofExcept, post_ite,
    rejects_throw, implies_true, true_and]
  rintro ha - _ hl ⟨_, _⟩ hb _ hg _ hs
  exact commitState_records ha (Records.externalSource hl hb hg hs) rfl rfl

theorem callPost_archive (snapshot : Bytes) (durableHeads : List ChangeHash)
    (canonicalPath : PathBuf) (sourceFingerprint : SourceFingerprint) (sourceGeneration : Nat)
    (replacementChangeHashes : List ChangeHash) (saveSequence : Nat) :
    CallPost automerge serde room io (.ArchiveAndCommitReconciledSource snapshot durableHeads
      canonicalPath sourceFingerprint sourceGeneration replacementChangeHashes saveSequence) := by
  unfold CallPost call archiveAndCommitReconciledSource
  simp only [post_bind, rejects_ensureAcceptingCommits, post_get, rejects_ofExcept, post_ite,
    rejects_throw, implies_true, true_and]
  intro haccept candidate hl hh
  cases hj : room.journal with
  | none => exact .rejected _
  | some journal =>
    simp only [post_bind, rejects_ofExcept]
    intro sequence hs
    have hr : Records automerge (.ArchiveAndCommitReconciledSource snapshot durableHeads
        canonicalPath sourceFingerprint sourceGeneration replacementChangeHashes saveSequence) _ _ :=
      .archive hl (not_not.mp hh) hs
    unfold replaceJournal
    split
    · rename_i replacement replaced ha
      exact .committed haccept hr ⟨journal, replacement, replaced, hj, ha, rfl⟩
    · rename_i error failed ha
      exact .journal haccept hr ⟨journal, failed, hj, ha, rfl⟩

theorem callPost_promote (journal : RecoveryJournal) :
    CallPost automerge serde room io (.PromoteToJournal journal) := by
  unfold CallPost call promoteToJournal
  simp only [post_bind, rejects_ensureAcceptingCommits, post_get]
  intro haccept
  cases hj : room.journal with
  | some =>
    simp only [post_ite]
    exact ⟨fun hpath => .already (.promote haccept hj hpath), fun _ => .rejected _⟩
  | none =>
    simp only [post_ite, post_bind, rejects_throw, implies_true, true_and, rejects_ofExcept]
    intro hs promoted hp
    simp only [Bool.or_eq_true, not_or, Option.isNone_iff_eq_none,
      ← Option.isSome_iff_ne_none] at hs
    have hr : Records automerge (.PromoteToJournal journal) _ _ := .promote hs.1 hs.2 hp
    split
    · rename_i failure failed ha
      rw [post_degradeJournal, hj]
      exact .journal haccept hr ⟨hj, ⟨failed, journal, rfl, ha⟩, rfl⟩
    · rename_i appended ha
      exact .committed haccept hr ⟨hj, appended, ha, rfl⟩

theorem callPost (op : Operation) : CallPost automerge serde room io op := by
  cases op with
  | PromoteToJournal => exact callPost_promote ..
  | CommitSnapshot => exact callPost_snapshot ..
  | CommitStagedSource => exact callPost_stagedSource ..
  | CommitSourceReady => exact callPost_sourceReady ..
  | PrepareFileCheckpoint => exact callPost_prepare ..
  | AbortFileCheckpoint => exact callPost_abort ..
  | ResolveRecoveredFileCheckpoint => exact callPost_resolve ..
  | CommitFileCheckpoint => exact callPost_checkpoint ..
  | ArchiveAndCommitReconciledSource => exact callPost_archive ..
  | CommitPeerChanges => exact callPost_peerChanges ..
  | CommitExternalSourceRevision => exact callPost_externalSource ..

end Operations

theorem call_ok (hc : call automerge serde io op room = .ok outcome after) :
    CallOk automerge serde io op room outcome after :=
  Post.of_ok (callPost automerge serde room io op) hc

theorem call_error (hc : call automerge serde io op room = .error error after) :
    CallError automerge serde io op room error after :=
  Post.of_error (callPost automerge serde room io op) hc

-- `Skips` is not only what an acknowledged skip means, it is also enough for one.
theorem call_of_skips (hs : Skips automerge op room status) :
    call automerge serde io op room = .ok (.AlreadyDurable status) room := by
  apply Post.eq_ok
  cases hs with
  | promote haccept hj hpath =>
    unfold call promoteToJournal
    simp [haccept, hj, hpath]
  | snapshot haccept hl hc hrec hheads hmut =>
    unfold call commitSnapshot
    simp [haccept, hl, hc, hrec, hheads, hmut]
  | stagedSource haccept hl hin hrec hmut he hc =>
    unfold call commitStagedSource
    subst he
    simpa [haccept, hl, hrec, hmut, hc, Automerge.getChangeByHash] using hin
  | sourceReady haccept hrec hgen hphase =>
    unfold call commitSourceReady
    simp [haccept, hrec, hgen, hphase, mutationIsAlreadyReflected]
  | prepare haccept hc hp =>
    unfold call prepareFileCheckpoint
    simp [haccept, hc, hp]
  | abort haccept hp =>
    unfold call abortFileCheckpoint
    simp [haccept, hp]
  | resolve haccept hp =>
    unfold call resolveRecoveredFileCheckpoint
    simp [haccept, hp]
  | checkpoint haccept hc hreflected hm =>
    have hp := checkpointReflected_pending hreflected
    unfold call commitFileCheckpointWithGeneration
    simp [haccept, hc, hreflected, hm, hp]
  | noPeerChanges haccept =>
    unfold call commitPeerChanges
    simp [haccept]
  | peerChanges haccept hn hl hb hsame =>
    unfold call commitPeerChanges
    rcases hsame with rfl | hsame
    · simp [haccept, hn, hl, hb]
    · simp [haccept, hn, hl, hb, hsame]

end Nteract.Durability
