import Nteract.Checkpoint.OnDisk
import Nteract.SaveProtocol

namespace Nteract.SaveProtocol

open Checkpoint Durability Recovery Function

variable {automerge : Automerge} {serde : ManifestSerde} {path : PathBuf}
  {room after : RoomDurability} {next : DurabilityState} {op : Operation}

theorem records_quiet (hq : Quiet op = true) (hr : Records automerge op state next) :
    next.manifest.sourceFingerprint = state.manifest.sourceFingerprint ∧
      next.manifest.pendingFileCheckpoint = state.manifest.pendingFileCheckpoint := by
  cases hr with
  | snapshot =>
    have hd := of_decide_eq_true hq
    subst hd
    exact ⟨rfl, rfl⟩
  | sourceReady | peerChanges => exact ⟨rfl, rfl⟩
  | promote | stagedSource | prepare | abort | resolve | checkpoint | archive | externalSource =>
    cases hq

theorem records_prepare (hr : Records automerge (.PrepareFileCheckpoint pending) state next) :
    state.manifest.pendingFileCheckpoint = none ∧
      next.manifest.sourceFingerprint = state.manifest.sourceFingerprint ∧
      next.manifest.pendingFileCheckpoint = some pending := by
  cases hr with
  | prepare _ hn => exact ⟨hn, rfl, rfl⟩

theorem records_abort (hr : Records automerge (.AbortFileCheckpoint saveSequence) state next) :
    next.manifest.sourceFingerprint = state.manifest.sourceFingerprint := by
  cases hr with
  | abort => rfl

theorem records_checkpoint (hr : Records automerge (.CommitFileCheckpoint checkpoint) state next) :
    next.manifest.sourceFingerprint = checkpoint.fileFingerprint := by
  cases hr with
  | checkpoint =>
    unfold checkpointManifest
    split
    · rename_i hreflected
      obtain ⟨_, hp⟩ := promoteUnlessDegraded_eq state.manifest state.degraded
      simp only [checkpointReflected, mutationIsAlreadyReflected, Bool.and_eq_true,
        decide_eq_true_eq] at hreflected
      rw [hp]
      exact hreflected.2.2.1
    · obtain ⟨_, hp⟩ := promoteUnlessDegraded_eq
        (applyMutationToManifest state.manifest (.FileCheckpoint checkpoint)) state.degraded
      rw [hp]
      rfl

theorem records_resolve
    (hr : Records automerge (.ResolveRecoveredFileCheckpoint fingerprint) state next) :
    next.manifest.sourceFingerprint = fingerprint := by
  cases hr with
  | @resolve pending _ resolved _ _ _ hresolved _ =>
    obtain ⟨_, hp⟩ := promoteUnlessDegraded_eq resolved state.degraded
    rw [hp]
    exact (resolvedManifest_kept hresolved).2.2.2

-- The bytes on disk are the source of the manifest, or those its intent announces.
def Agrees (disk : PathBuf → Option Bytes) (path : PathBuf) (manifest : RecoveryManifest) : Prop :=
  match manifest.pendingFileCheckpoint with
  | none => OnDisk disk path manifest.sourceFingerprint
  | some pending => OnDisk disk path manifest.sourceFingerprint ∨
      OnDisk disk path pending.fileFingerprint

theorem agrees_of_source (hd : OnDisk disk path manifest.sourceFingerprint) :
    Agrees disk path manifest := by
  unfold Agrees
  split
  · exact hd
  · exact .inl hd

theorem agrees_of_pending (hp : manifest.pendingFileCheckpoint = some pending)
    (hd : OnDisk disk path pending.fileFingerprint) : Agrees disk path manifest := by
  rw [Agrees, hp]
  exact .inr hd

theorem Agrees.source (ha : Agrees disk path manifest)
    (hp : manifest.pendingFileCheckpoint = none) :
    OnDisk disk path manifest.sourceFingerprint := by
  rw [Agrees, hp] at ha
  exact ha

theorem Agrees.congr (ha : Agrees disk path manifest)
    (hs : other.sourceFingerprint = manifest.sourceFingerprint)
    (hp : other.pendingFileCheckpoint = manifest.pendingFileCheckpoint) :
    Agrees disk path other := by
  rw [Agrees, hp, hs]
  exact ha

section Called

variable (automerge serde)

-- A call that succeeded: nothing to do, or the record is what the journal now holds.
inductive Succeeded (op : Operation) (room after : RoomDurability) : Prop
  | skipped {status : RoomDurabilityStatus} : Skips automerge op room status → after = room →
      Succeeded op room after
  | recorded : Records automerge op room.state after.state →
      (∀ record, after.stored serde = some record → record.manifest = after.state.manifest) →
      Succeeded op room after

-- A call that failed leaves the manifest alone; its record may have reached the journal.
structure Failed (op : Operation) (room after : RoomDurability) : Prop where
  manifest : after.state.manifest = room.state.manifest
  stored : ∀ record, after.stored serde = some record → room.stored serde = some record ∨
    ∃ next, Records automerge op room.state next ∧ record.manifest = next.manifest

-- Every way a call can return has one of the two effects.
def Effectful (returns : Returns) : Prop :=
  ∀ room op result after, JournalSound serde room → op.Opened → returns room op result after →
    Effect automerge serde room (.Returned op result) after

theorem living_effectful : Effectful automerge serde (Living automerge serde) :=
  fun _ _ _ _ hc _ hs => (roomStep_effect hc hs).1

theorem dying_effectful : Effectful automerge serde (Dying automerge serde) := by
  rintro _ _ _ _ hc ho ⟨_, hs⟩
  exact callStep_effect hc hs ho

variable {automerge serde}

theorem effect_ok (he : Effect automerge serde room (.Returned op (.ok outcome)) after) :
    Succeeded automerge serde op room after := by
  cases he with
  | skipped hs => exact .skipped hs rfl
  | committed hr hstored =>
    refine .recorded hr fun record hrecord => ?_
    rcases hstored with ⟨_, hn⟩ | hstored
    · rw [RoomDurability.stored, hn] at hrecord
      cases hrecord
    · rw [hstored, Option.some.injEq] at hrecord
      rw [← hrecord]
      rfl

theorem effect_error (he : Effect automerge serde room (.Returned op (.error error)) after) :
    Failed automerge serde op room after := by
  cases he with
  | failed hstate _ ht =>
    refine ⟨by rw [hstate], fun record hrecord => ?_⟩
    rcases ht with hs | ⟨next, hr, hs⟩
    · exact .inl (hs ▸ hrecord)
    · rw [hs, Option.some.injEq] at hrecord
      exact .inr ⟨next, hr, by rw [← hrecord]; rfl⟩

theorem Failed.degraded (hf : Failed automerge serde op room after)
    (degraded : Option RoomDegradation) :
    Failed automerge serde op room (setDegraded degraded after) :=
  ⟨hf.manifest, hf.stored⟩

theorem answers_ok (he : Effectful automerge serde returns) (hc : JournalSound serde room)
    (ha : Answers returns op context room (.ok ()) after) (ho : op.Opened) :
    Succeeded automerge serde op room after := by
  rcases ha with ⟨_, hr, _⟩ | ⟨_, _, _, hanswer, _⟩
  · exact effect_ok (he room op _ after hc ho hr)
  · cases hanswer

theorem answers_error (he : Effectful automerge serde returns) (hc : JournalSound serde room)
    (ha : Answers returns op context room (.error message) after) (ho : op.Opened) :
    Failed automerge serde op room after := by
  rcases ha with ⟨_, _, hanswer⟩ | ⟨_, failed, hr, _, rfl⟩
  · cases hanswer
  · exact (effect_error (he room op _ failed hc ho hr)).degraded _

theorem answers_sound (hc : JournalSound serde room)
    (ha : Answers (Living automerge serde) op context room answer after) :
    JournalSound serde after := by
  rcases ha with ⟨_, hr, _⟩ | ⟨_, _, hr, _, rfl⟩ <;> exact (roomStep_effect hc hr).2

end Called

-- A save that announced its replacement and has not ended.
def intendedSave : Stage → Option Save
  | .Prepared save | .Renamed save | .Replaced save | .Aborting save _ => some save
  | _ => none

-- It announced a replacement that did not happen, or has not happened yet.
def unreplaced : Stage → Bool
  | .Prepared _ | .Aborting _ _ => true
  | _ => false

-- The intent in memory is that of the save in progress, so there is at most one.
structure Agreement (serde : ManifestSerde) (path : PathBuf) (world : World RoomDurability) :
    Prop where
  claims : Claims world
  checked : Checked world
  paths : SavesPath path world
  memory : Agrees world.disk path world.shared.state.manifest
  stored : ∀ record, world.shared.stored serde = some record →
    Agrees world.disk path record.manifest
  intends : ∀ sequence stage, world.saves sequence = some stage →
    ∀ save, intendedSave stage = some save → ∃ intent,
      world.shared.state.manifest.pendingFileCheckpoint =
        some (pendingCheckpoint save.claim.preparation intent)
  unreplaced : ∀ sequence stage, world.saves sequence = some stage →
    unreplaced stage = true →
      OnDisk world.disk path world.shared.state.manifest.sourceFingerprint
  replacing : ∀ sequence stage, world.saves sequence = some stage →
    ∀ save, stage.replacing = some save →
      OnDisk world.disk path save.claim.target.fileFingerprint
  announced : ∀ sequence stage, world.saves sequence = some stage →
    ∀ save, stage = .Prepared save → ∀ record, world.shared.stored serde = some record →
      record.manifest.pendingFileCheckpoint =
        world.shared.state.manifest.pendingFileCheckpoint

section Saves

variable {world changed : World RoomDurability} {sequence : Nat}

theorem save_of_intended (hi : intendedSave stage = some save) : stage.save = some save := by
  cases stage <;> first | exact hi | cases hi

theorem intended_of_replacing (hr : stage.replacing = some save) :
    intendedSave stage = some save := by
  cases stage <;> first | exact hr | cases hr

theorem intended_of_unreplaced (hu : unreplaced stage = true) :
    ∃ save, intendedSave stage = some save := by
  cases stage <;> first | exact ⟨_, rfl⟩ | cases hu

theorem Agreement.intended_unique (ha : Agreement serde path world)
    (hs : world.saves sequence = some stage) (hi : intendedSave stage = some save)
    (hs' : world.saves other = some stage') (hi' : intendedSave stage' = some found) :
    other = sequence := by
  obtain ⟨_, hp⟩ := ha.intends sequence stage hs save hi
  obtain ⟨_, hp'⟩ := ha.intends other stage' hs' found hi'
  rw [hp, Option.some.injEq] at hp'
  have hsequence : save.claim.sequence = found.claim.sequence :=
    congrArg PendingFileCheckpoint.saveSequence hp'
  rw [ha.claims sequence stage hs save (save_of_intended hi),
    ha.claims other stage' hs' found (save_of_intended hi')] at hsequence
  exact hsequence.symm

theorem Agreement.others_idle (ha : Agreement serde path world)
    (hs : world.saves sequence = some stage) (hi : intendedSave stage = some save) :
    ∀ other found, other ≠ sequence → world.saves other = some found →
      intendedSave found = none := by
  intro other found hne ho
  cases hf : intendedSave found with
  | none => rfl
  | some => exact (hne (ha.intended_unique hs hi ho hf)).elim

theorem Agreement.idle (ha : Agreement serde path world)
    (hp : world.shared.state.manifest.pendingFileCheckpoint = none)
    (hs : world.saves sequence = some stage) : intendedSave stage = none := by
  cases hi : intendedSave stage with
  | none => rfl
  | some save =>
    obtain ⟨_, hintent⟩ := ha.intends sequence stage hs save hi
    rw [hp] at hintent
    cases hintent

section Changed

variable (hc : Claims changed) (hk : Checked changed) (hpaths : SavesPath path changed)
include hc hk hpaths

theorem agreement_put (hothers : ∀ other found, other ≠ sequence → world.saves other = some found →
      intendedSave found = none)
    (hsaves : changed.saves = update world.saves sequence (some new))
    (hmemory : Agrees changed.disk path changed.shared.state.manifest)
    (hstored : ∀ record, changed.shared.stored serde = some record →
      Agrees changed.disk path record.manifest)
    (hintends : ∀ save, intendedSave new = some save → ∃ intent,
      changed.shared.state.manifest.pendingFileCheckpoint =
        some (pendingCheckpoint save.claim.preparation intent))
    (hunreplaced : unreplaced new = true →
      OnDisk changed.disk path changed.shared.state.manifest.sourceFingerprint)
    (hreplacing : ∀ save, new.replacing = some save →
      OnDisk changed.disk path save.claim.target.fileFingerprint)
    (hannounced : ∀ save, new = .Prepared save →
      ∀ record, changed.shared.stored serde = some record → record.manifest.pendingFileCheckpoint =
          changed.shared.state.manifest.pendingFileCheckpoint) :
    Agreement serde path changed := by
  refine ⟨hc, hk, hpaths, hmemory, hstored, ?_, ?_, ?_, ?_⟩
  · rw [hsaves]
    refine update_forall (fun other found hne h save hi => ?_) hintends
    rw [hothers other found hne h] at hi
    cases hi
  · rw [hsaves]
    refine update_forall (fun other found hne h hu => ?_) hunreplaced
    obtain ⟨save, hi⟩ := intended_of_unreplaced hu
    rw [hothers other found hne h] at hi
    cases hi
  · rw [hsaves]
    refine update_forall (fun other found hne h save hr => ?_) hreplacing
    have hi := intended_of_replacing hr
    rw [hothers other found hne h] at hi
    cases hi
  · rw [hsaves]
    refine update_forall (fun other found hne h save he => ?_) hannounced
    have hi := hothers other found hne h
    rw [he] at hi
    cases hi

-- The manifest keeps its source and its intent, whatever the journal was given.
theorem agreement_keep (ha : Agreement serde path world)
    (hsaves : ∀ sequence stage, changed.saves sequence = some stage →
      ∀ save, intendedSave stage = some save → world.saves sequence = some stage)
    (hd : changed.disk = world.disk)
    (hsource : changed.shared.state.manifest.sourceFingerprint =
      world.shared.state.manifest.sourceFingerprint)
    (hp : changed.shared.state.manifest.pendingFileCheckpoint =
      world.shared.state.manifest.pendingFileCheckpoint)
    (hstored : ∀ record, changed.shared.stored serde = some record →
      world.shared.stored serde = some record ∨ Agrees world.disk path record.manifest ∧
        ∀ sequence save, world.saves sequence = some (.Prepared save) →
          record.manifest.pendingFileCheckpoint =
            world.shared.state.manifest.pendingFileCheckpoint) :
    Agreement serde path changed := by
  refine ⟨hc, hk, hpaths, ?_, ?_, ?_, ?_, ?_, ?_⟩
  · rw [hd]
    exact ha.memory.congr hsource hp
  · intro record hr
    rw [hd]
    rcases hstored record hr with ho | ⟨hagrees, _⟩
    · exact ha.stored record ho
    · exact hagrees
  · intro sequence stage hs save hi
    rw [hp]
    exact ha.intends sequence stage (hsaves _ _ hs _ hi) save hi
  · intro sequence stage hs hu
    obtain ⟨save, hi⟩ := intended_of_unreplaced hu
    rw [hd, hsource]
    exact ha.unreplaced sequence stage (hsaves _ _ hs _ hi) hu
  · intro sequence stage hs save hr
    rw [hd]
    exact ha.replacing sequence stage (hsaves _ _ hs _ (intended_of_replacing hr)) save hr
  · rintro sequence _ hs save rfl record hr
    have hprepared := hsaves sequence _ hs save rfl
    rw [hp]
    rcases hstored record hr with ho | ⟨_, hannounced⟩
    · exact ha.announced sequence _ hprepared save rfl record ho
    · exact hannounced sequence save hprepared

variable (ha : Agreement serde path world)
include ha

theorem agreement_prepared
    (hsaves : changed.saves = update world.saves sequence (some (.Prepared save)))
    (hd : changed.disk = world.disk)
    (hf : world.shared.state.manifest.pendingFileCheckpoint ≠ some (pendingCheckpoint
      save.claim.preparation intent))
    (hcall : Succeeded automerge serde (.PrepareFileCheckpoint (pendingCheckpoint
      save.claim.preparation intent)) world.shared changed.shared) :
    Agreement serde path changed := by
  cases hcall with
  | skipped hskips =>
    cases hskips with
    | prepare _ _ hp => exact (hf hp).elim
  | recorded hr hs =>
    obtain ⟨hn, hsource, hp⟩ := records_prepare hr
    have hold : OnDisk changed.disk path changed.shared.state.manifest.sourceFingerprint := by
      rw [hd, hsource]
      exact ha.memory.source hn
    refine agreement_put hc hk hpaths (fun _ _ _ ho => ha.idle hn ho) hsaves
      (agrees_of_source hold) (fun record h => ?_) (fun found h => ?_) (fun _ => hold)
      nofun (fun _ _ record h => by rw [hs record h])
    · rw [hs record h]
      exact agrees_of_source hold
    · cases h
      exact ⟨intent, hp⟩

theorem agreement_renamed (hs : world.saves sequence = some (.Prepared save))
    (hsaves : changed.saves = update world.saves sequence (some (.Renamed save)))
    (hd : changed.disk = update world.disk save.claim.target.path (some save.content))
    (hshared : changed.shared = world.shared) : Agreement serde path changed := by
  obtain ⟨intent, hp⟩ := ha.intends sequence _ hs save rfl
  have hn : OnDisk changed.disk path save.claim.target.fileFingerprint := by
    rw [← ha.checked sequence _ hs save rfl, ← ha.paths sequence _ hs save rfl]
    exact onDisk_of_eq (by rw [hd, update_self])
  refine agreement_put hc hk hpaths (ha.others_idle hs rfl) hsaves ?_ (fun record h => ?_)
    (fun found h => ?_) nofun (fun found h => ?_) nofun
  · rw [hshared]
    exact agrees_of_pending hp hn
  · rw [hshared] at h
    exact agrees_of_pending ((ha.announced sequence _ hs save rfl record h).trans hp) hn
  · cases h
    exact ⟨intent, by rw [hshared, hp]⟩
  · cases h
    exact hn

variable (hsaves : changed.saves = update world.saves sequence (some new))
  (hn : intendedSave new = none) (hd : changed.disk = world.disk)
include hsaves hn

theorem agreement_ended (hs : world.saves sequence = some stage)
    (hi : intendedSave stage = some save)
    (hsource : OnDisk changed.disk path changed.shared.state.manifest.sourceFingerprint)
    (hstored : ∀ record, changed.shared.stored serde = some record →
      record.manifest = changed.shared.state.manifest) : Agreement serde path changed := by
  refine agreement_put hc hk hpaths (ha.others_idle hs hi) hsaves (agrees_of_source hsource)
    (fun record h => ?_) (fun found h => ?_) (fun _ => hsource) (fun found h => ?_)
    (fun found h => ?_)
  · rw [hstored record h]
    exact agrees_of_source hsource
  · rw [hn] at h
    cases h
  · rw [intended_of_replacing h] at hn
    cases hn
  · rw [h] at hn
    cases hn

include hd

theorem agreement_failed (hcall : Failed automerge serde op world.shared changed.shared)
    (hall : ∀ next, Records automerge op world.shared.state next →
      Agrees world.disk path next.manifest ∧
        ∀ other found, world.saves other = some (.Prepared found) →
          next.manifest.pendingFileCheckpoint =
            world.shared.state.manifest.pendingFileCheckpoint) : Agreement serde path changed := by
  refine agreement_keep hc hk hpaths ha ?_ hd (by rw [hcall.manifest]) (by rw [hcall.manifest])
    (fun record h => ?_)
  · rw [hsaves]
    refine update_forall (fun other stage _ h _ _ => h) (fun intended hi => ?_)
    rw [hn] at hi
    cases hi
  · rcases hcall.stored record h with ho | ⟨next, hr, hrecord⟩
    · exact .inl ho
    · rw [hrecord]
      exact .inr (hall next hr)

theorem agreement_committed (hs : world.saves sequence = some (.Replaced save))
    (hcall : Succeeded automerge serde (.CommitFileCheckpoint (committedCheckpoint
      (save.claim.checkpoint savedAt) intent)) world.shared changed.shared) :
    Agreement serde path changed := by
  obtain ⟨_, hp⟩ := ha.intends sequence _ hs save rfl
  cases hcall with
  | skipped hskips =>
    cases hskips with
    | checkpoint _ _ hreflected =>
      rw [checkpointReflected_pending hreflected] at hp
      cases hp
  | recorded hr hstored =>
    refine agreement_ended hc hk hpaths ha hsaves hn hs rfl ?_ hstored
    rw [hd, records_checkpoint hr]
    exact ha.replacing sequence _ hs save rfl

theorem agreement_aborted (hs : world.saves sequence = some (.Aborting save error))
    (hcall : Succeeded automerge serde (.AbortFileCheckpoint save.claim.sequence) world.shared
      changed.shared) : Agreement serde path changed := by
  obtain ⟨_, hp⟩ := ha.intends sequence _ hs save rfl
  cases hcall with
  | skipped hskips =>
    cases hskips with
    | abort _ hnone =>
      rw [hnone] at hp
      cases hp
  | recorded hr hstored =>
    refine agreement_ended hc hk hpaths ha hsaves hn hs rfl ?_ hstored
    rw [hd, records_abort hr]
    exact ha.unreplaced sequence _ hs rfl

end Changed

end Saves

-- No directory sync fails after its rename, and no save finds its own intent pending.
def KeepsIntent (world : World RoomDurability) : SaveEvent → Prop
  | .SyncParent _ (some _) => False
  | .Prepare sequence => ∀ save intent, world.saves sequence = some (.Locked save) →
      world.shared.state.manifest.pendingFileCheckpoint ≠
        some (pendingCheckpoint save.claim.preparation intent)
  | _ => True

theorem opened_of_quiet (hq : Quiet op = true) : op.Opened := by
  cases op <;> trivial

theorem agreement_other (he : Effectful automerge serde returns)
    (hsound : JournalSound serde world.shared) (ha : Agreement serde path world)
    (ho : (durabilityCallbacks returns).other world.shared after) :
    Agreement serde path { world with shared := after } := by
  have hk : after.state.manifest.sourceFingerprint = world.shared.state.manifest.sourceFingerprint →
      after.state.manifest.pendingFileCheckpoint =
        world.shared.state.manifest.pendingFileCheckpoint →
      (∀ record, after.stored serde = some record → world.shared.stored serde = some record ∨
          (record.manifest.sourceFingerprint = world.shared.state.manifest.sourceFingerprint ∧
            record.manifest.pendingFileCheckpoint =
              world.shared.state.manifest.pendingFileCheckpoint)) →
      Agreement serde path { world with shared := after } := by
    intro hsource hpending hstored
    refine agreement_keep ha.claims ha.checked ha.paths ha (fun _ _ hs _ _ => hs) rfl hsource
      hpending fun record h => (hstored record h).imp_right ?_
    exact fun ⟨hs, hp⟩ => ⟨ha.memory.congr hs hp, fun _ _ _ => hp⟩
  rcases ho with ⟨op, result, hq, hr⟩ | ⟨_, rfl⟩ | ⟨_, rfl⟩
  · have heffect := he world.shared op result after hsound (opened_of_quiet hq) hr
    cases result with
    | ok =>
      cases effect_ok heffect with
      | skipped _ hsame =>
        subst hsame
        exact ha
      | recorded hrecords hstored =>
        obtain ⟨hsource, hpending⟩ := records_quiet hq hrecords
        refine hk hsource hpending fun record h => .inr ?_
        rw [hstored record h]
        exact ⟨hsource, hpending⟩
    | error =>
      have hf := effect_error heffect
      refine hk (by rw [hf.manifest]) (by rw [hf.manifest]) fun record h => ?_
      rcases hf.stored record h with hold | ⟨_, hrecords, hrecord⟩
      · exact .inl hold
      · rw [hrecord]
        exact .inr (records_quiet hq hrecords)
  · exact hk rfl rfl fun _ h => .inl h
  · exact hk rfl rfl fun _ h => .inl h

theorem saveStep_agreement (he : Effectful automerge serde returns)
    (hsound : JournalSound serde world.shared) (ha : Agreement serde path world)
    (hg : KeepsIntent world event) (hpaths : SavesPath path changed)
    (hs : SaveStep (durabilityCallbacks returns) world event changed) :
    Agreement serde path changed := by
  have hc := saveStep_claims ha.claims hs
  have hk := saveStep_checked ha.checked hs
  -- A save that announced nothing, or ends without a call, moves on.
  have hquiet : ∀ {sequence : Nat} {new : Stage},
      changed.saves = update world.saves sequence (some new) →
      intendedSave new = none → changed.disk = world.disk → changed.shared = world.shared →
      Agreement serde path changed := by
    intro sequence new hsaves hnew hdisk hshared
    refine agreement_keep hc hk hpaths ha ?_ hdisk (by rw [hshared]) (by rw [hshared])
      (fun record h => .inl (hshared ▸ h))
    rw [hsaves]
    refine update_forall (fun _ _ _ h _ _ => h) (fun found hi => ?_)
    rw [hnew] at hi
    cases hi
  cases hs with
  | exhausted => exact ha
  | other ho => exact agreement_other he hsound ha ho
  | reserved _ hr =>
    exact hquiet rfl rfl rfl rfl
  | answered =>
    refine hquiet rfl ?_ rfl rfl
    split <;> rfl
  | abandoned | bound | verified | unverified | stale | outdated | written | unwritten
  | superseded | edited | entered | overtaken => exact hquiet rfl rfl rfl rfl
  | prepared hstage hprepare =>
    obtain ⟨intent, hanswers⟩ := hprepare
    exact agreement_prepared hc hk hpaths ha rfl rfl (hg _ intent hstage)
      (answers_ok he hsound hanswers trivial)
  | unprepared _ hprepare =>
    obtain ⟨intent, hanswers⟩ := hprepare
    refine agreement_failed hc hk hpaths ha rfl rfl rfl
      (answers_error he hsound hanswers trivial) fun next hr => ?_
    obtain ⟨hnone, hsource, _⟩ := records_prepare hr
    refine ⟨agrees_of_source (hsource ▸ ha.memory.source hnone), fun other found h => ?_⟩
    cases ha.idle hnone h
  | renamed hstage => exact agreement_renamed hc hk hpaths ha hstage rfl rfl rfl
  | unrenamed _ hstage =>
    obtain ⟨intent, hpending⟩ := ha.intends _ _ hstage _ rfl
    refine agreement_put hc hk hpaths (ha.others_idle hstage rfl) rfl ha.memory ha.stored
      (fun found h => ?_) (fun _ => ha.unreplaced _ _ hstage rfl) nofun
      nofun
    cases h
    exact ⟨intent, hpending⟩
  | synced hstage =>
    obtain ⟨intent, hpending⟩ := ha.intends _ _ hstage _ rfl
    refine agreement_put hc hk hpaths (ha.others_idle hstage rfl) rfl ha.memory ha.stored
      (fun found h => ?_) nofun (fun found h => ?_) nofun
    · cases h
      exact ⟨intent, hpending⟩
    · exact ha.replacing _ _ hstage found h
  | unsynced => exact hg.elim
  | committed _ hstage hcommit =>
    obtain ⟨_, hanswers⟩ := hcommit
    exact agreement_committed hc hk hpaths ha rfl rfl rfl hstage
      (answers_ok he hsound hanswers trivial)
  | uncommitted _ hstage hcommit =>
    obtain ⟨_, hanswers⟩ := hcommit
    refine agreement_failed hc hk hpaths ha rfl rfl rfl
      (answers_error he hsound hanswers trivial) fun next hr => ?_
    refine ⟨agrees_of_source ?_, fun other found h => ?_⟩
    · rw [records_checkpoint hr]
      exact ha.replacing _ _ hstage _ rfl
    · have hsame := ha.intended_unique hstage rfl h rfl
      rw [hsame, hstage] at h
      cases h
  | @aborted result _ _ _ _ _ hstage habort =>
    cases result with
    | ok =>
      exact agreement_aborted hc hk hpaths ha rfl rfl rfl hstage
        (answers_ok he hsound habort trivial)
    | error =>
      refine agreement_failed hc hk hpaths ha rfl rfl rfl
        (answers_error he hsound habort trivial) fun next hr => ?_
      refine ⟨agrees_of_source ?_, fun other found h => ?_⟩
      · rw [records_abort hr]
        exact ha.unreplaced _ _ hstage rfl
      · have hsame := ha.intended_unique hstage rfl h rfl
        rw [hsame, hstage] at h
        cases h
  | unselected _ _ _ hcommit => exact hcommit.elim
  | selected _ _ _ hcommit => exact hcommit.elim

theorem saveStep_sound (hsound : JournalSound serde world.shared)
    (hs : SaveStep (durabilityCallbacks (Living automerge serde)) world event changed) :
    JournalSound serde changed.shared := by
  cases hs with
  | prepared _ hp | unprepared _ hp =>
    obtain ⟨_, ha⟩ := hp
    exact answers_sound hsound ha
  | committed _ _ hc | uncommitted _ _ hc =>
    obtain ⟨_, ha⟩ := hc
    exact answers_sound hsound ha
  | aborted _ habort => exact answers_sound hsound habort
  | other ho =>
    rcases ho with ⟨_, _, _, hr⟩ | ⟨_, rfl⟩ | ⟨_, rfl⟩
    · exact (roomStep_effect hsound hr).2
    · exact hsound
    · exact hsound
  | unselected _ _ _ hc => exact hc.elim
  | selected _ _ _ hc => exact hc.elim
  | reserved | exhausted | abandoned | bound | verified | unverified | stale | outdated | answered
  | written | unwritten | superseded | edited | entered | renamed | unrenamed | synced | unsynced
  | overtaken => exact hsound

theorem saveStep_paths (hp : SavesPath path world) (hb : ∀ sequence, event ≠ .Bind sequence)
    (hs : SaveStep callbacks world event changed) : SavesPath path changed :=
  saveStep_saves hp hs fun sequence _ _ he => absurd he (hb sequence)

end Nteract.SaveProtocol
