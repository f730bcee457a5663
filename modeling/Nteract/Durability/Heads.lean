import Nteract.Durability.Runs

namespace Nteract.Durability

open Lib.Effect Lib.Transition Recovery

variable {automerge : Automerge} {serde : ManifestSerde} {room after : RoomDurability}
  {sequence : Nat}

theorem containsHeads_nil : ContainsHeads automerge snapshot [] := .inl rfl

theorem containsHeads_of_load (hl : automerge.load snapshot = .ok document)
    (hh : ∀ head ∈ heads, head ∈ automerge.getChanges document) :
    ContainsHeads automerge snapshot heads :=
  .inr ⟨document, hl, hh⟩

theorem containsHeads_save (hh : ∀ head ∈ heads, head ∈ automerge.getChanges document) :
    ContainsHeads automerge (automerge.save document) heads :=
  containsHeads_of_load (automerge.load_save document) hh

theorem containsHeads_getHeads (document : Document) :
    ContainsHeads automerge (automerge.save document) (automerge.getHeads document) :=
  containsHeads_save fun _ => Automerge.mem_getHeads_applied

theorem ContainsHeads.mono (hc : ContainsHeads automerge snapshot heads)
    (hl : automerge.load snapshot = .ok document)
    (hs : automerge.getChanges document ⊆ automerge.getChanges larger) :
    ContainsHeads automerge (automerge.save larger) heads := by
  rcases hc with rfl | ⟨_, hloaded, hh⟩
  · exact containsHeads_nil
  · rw [hl] at hloaded
    cases hloaded
    exact containsHeads_save fun head hm => hs (hh head hm)

-- Every head the manifest names is an applied change of the snapshot.
structure Recoverable (automerge : Automerge) (manifest : RecoveryManifest) (snapshot : Bytes) :
    Prop where
  durable : ContainsHeads automerge snapshot manifest.durableHeads
  exported : ContainsHeads automerge snapshot manifest.exportedHeads
  pending : ∀ pending, manifest.pendingFileCheckpoint = some pending →
    ContainsHeads automerge snapshot pending.exportedHeads

-- The head lists that stay when a snapshot takes the place of the durable one.
def carriedHeads (manifest : RecoveryManifest) : DurableMutation → List (List ChangeHash)
  | .Source _ _ _ =>
    (manifest.pendingFileCheckpoint.map PendingFileCheckpoint.exportedHeads).toList
  | .FileCheckpoint checkpoint => [checkpoint.exportedHeads]
  | _ => manifest.exportedHeads ::
      (manifest.pendingFileCheckpoint.map PendingFileCheckpoint.exportedHeads).toList

-- commit_snapshot trusts its caller with the heads, except for a daemon snapshot that is merged
-- over a durable record.
def NamesItsHeads (automerge : Automerge) (serde : ManifestSerde) (state : DurabilityState) :
    Operation → Prop
  | .CommitSnapshot snapshot durableHeads mutation =>
    state.hasDurableRecord = true ∧ mutation = .Daemon ∨
      ContainsHeads automerge snapshot durableHeads ∧
        ∀ heads ∈ carriedHeads state.manifest mutation, ContainsHeads automerge snapshot heads
  | .PromoteToJournal journal => ∀ record, register serde journal = some record →
      Recoverable automerge record.manifest record.automergeSnapshot
  | _ => True

section

variable (hr : Recoverable automerge manifest snapshot)
include hr

theorem Recoverable.mono (hl : automerge.load snapshot = .ok document)
    (hs : automerge.getChanges document ⊆ automerge.getChanges larger) :
    Recoverable automerge manifest (automerge.save larger) where
  durable := hr.durable.mono hl hs
  exported := hr.exported.mono hl hs
  pending pending hp := (hr.pending pending hp).mono hl hs

theorem Recoverable.congr (hd : other.durableHeads = manifest.durableHeads)
    (he : other.exportedHeads = manifest.exportedHeads)
    (hp : other.pendingFileCheckpoint = manifest.pendingFileCheckpoint) :
    Recoverable automerge other snapshot where
  durable := hd ▸ hr.durable
  exported := he ▸ hr.exported
  pending pending h := hr.pending pending (hp ▸ h)

theorem Recoverable.promote (degraded : Option RoomDegradation) :
    Recoverable automerge (promoteUnlessDegraded degraded manifest) snapshot := by
  obtain ⟨_, hp⟩ := promoteUnlessDegraded_eq manifest degraded
  rw [hp]
  exact hr.congr rfl rfl rfl

end

theorem Recoverable.checkpoint {checkpoint : PendingFileCheckpoint}
    (hr : Recoverable automerge manifest snapshot)
    (hc : ContainsHeads automerge snapshot checkpoint.exportedHeads) :
    Recoverable automerge (applyMutationToManifest manifest (.FileCheckpoint checkpoint))
      snapshot where
  durable := hr.durable
  exported := hc
  pending _ hp := by cases hp

theorem recoverable_checkpointManifest
    (hr : Recoverable automerge state.manifest state.durableSnapshot)
    (hc : ContainsHeads automerge state.durableSnapshot checkpoint.exportedHeads) :
    Recoverable automerge (checkpointManifest state checkpoint) state.durableSnapshot := by
  unfold checkpointManifest
  by_cases hreflected : checkpointReflected state checkpoint = true
  · rw [if_pos hreflected]
    exact hr.promote _
  · rw [if_neg hreflected]
    exact (hr.checkpoint hc).promote _

theorem recoverable_resolvedManifest (hr : Recoverable automerge manifest snapshot)
    (hp : manifest.pendingFileCheckpoint = some pending)
    (hm : resolvedManifest manifest pending fingerprint = .ok resolved) :
    Recoverable automerge resolved snapshot := by
  unfold resolvedManifest at hm
  split_ifs at hm
  · cases hm
    exact hr.checkpoint (hr.pending pending hp)
  · cases hm
    exact ⟨hr.durable, hr.exported, nofun⟩

theorem recoverable_snapshotManifest (hd : ContainsHeads automerge snapshot durableHeads)
    (hc : ∀ heads ∈ carriedHeads manifest mutation, ContainsHeads automerge snapshot heads) :
    Recoverable automerge (snapshotManifest manifest sequence durableHeads mutation) snapshot := by
  have hpending : ∀ pending, manifest.pendingFileCheckpoint = some pending → pending.exportedHeads ∈
        (manifest.pendingFileCheckpoint.map PendingFileCheckpoint.exportedHeads).toList := by
    intro pending hp
    simp [hp]
  cases mutation with
  | Source => exact ⟨hd, hd, fun pending hp => hc _ (hpending pending hp)⟩
  | FileCheckpoint => exact ⟨hd, hc _ (.head _), nofun⟩
  | _ =>
    exact ⟨hd, hc _ (.head _), fun pending hp => hc _ (.tail _ (hpending pending hp))⟩

theorem records_recoverable (hr : Records automerge op state next)
    (hn : NamesItsHeads automerge serde state op)
    (hi : Recoverable automerge state.manifest state.durableSnapshot) :
    Recoverable automerge next.manifest next.durableSnapshot := by
  cases hr with
  | promote _ _ hm =>
    obtain ⟨-, hd, he, hp⟩ := promotedManifest_eq_ok hm
    exact hi.congr hd he hp
  | @snapshot _ _ _ _ mutation _ _ _ hl hc _ _ =>
    by_cases hmerge : state.hasDurableRecord = true ∧ mutation = .Daemon
    · obtain ⟨hrec, rfl⟩ := hmerge
      obtain ⟨durable, merged, hload, hmerged, rfl, rfl⟩ := (committedSnapshot_daemon hrec).mp hc
      have hk := hi.mono (loadSnapshot_eq_ok.mp hload) (getChanges_merged hmerged)
      exact ⟨containsHeads_getHeads _, hk.exported, hk.pending⟩
    · have ho : state.hasDurableRecord = false ∨ mutation ≠ .Daemon := by
        rw [not_and_or] at hmerge
        simpa using hmerge
      rw [committedSnapshot_other ho] at hc
      cases hc
      obtain ⟨hdeclared, hcarried⟩ := hn.resolve_left hmerge
      exact recoverable_snapshotManifest hdeclared hcarried
  | @stagedSource _ staged _ durable merged _ _ _ _ _ _ hin hl hm _ =>
    have hk := hi.mono (loadSnapshot_eq_ok.mp hl)
      (Automerge.getChanges_mono (base_subset_merged hm))
    exact ⟨containsHeads_getHeads _,
      containsHeads_save fun head hh => getChanges_merged hm (hin head hh), hk.pending⟩
  | sourceReady => exact hi.congr rfl rfl rfl
  | prepare hc =>
    refine ⟨hi.durable, hi.exported, ?_⟩
    rintro _ ⟨⟩
    exact snapshotContainsHeads_eq_true.mp hc
  | abort => exact ⟨hi.durable, hi.exported, nofun⟩
  | resolve hp hm =>
    exact ((recoverable_resolvedManifest hi hp hm).promote _).congr rfl rfl rfl
  | checkpoint hc =>
    exact (recoverable_checkpointManifest hi (snapshotContainsHeads_eq_true.mp hc)).congr
      rfl rfl rfl
  | archive hl hsorted =>
    have hperm := perm_of_sortUnstable_eq hsorted
    have hheads := containsHeads_of_load (loadSnapshot_eq_ok.mp hl) fun head hh =>
      Automerge.mem_getHeads_applied (hperm.mem_iff.mpr hh)
    exact ⟨hheads, hheads, nofun⟩
  | peerChanges hl hb =>
    have hk := hi.mono (loadSnapshot_eq_ok.mp hl) (Automerge.getChanges_mono (batch_subset hb).1)
    exact ⟨containsHeads_getHeads _, hk.exported, hk.pending⟩
  | externalSource hl hb =>
    have hk := hi.mono (loadSnapshot_eq_ok.mp hl) (Automerge.getChanges_mono (batch_subset hb).1)
    exact ⟨containsHeads_getHeads _, containsHeads_getHeads _, hk.pending⟩

structure RoomRecoverable (automerge : Automerge) (serde : ManifestSerde) (room : RoomDurability) :
    Prop where
  memory : Recoverable automerge room.state.manifest room.state.durableSnapshot
  disk : ∀ record, room.stored serde = some record →
    Recoverable automerge record.manifest record.automergeSnapshot

theorem tried_recoverable (hn : NamesItsHeads automerge serde room.state op)
    (hi : RoomRecoverable automerge serde room) (ht : Tried automerge serde op room stored)
    (record : RecoveryRecord) (hs : stored = some record) :
    Recoverable automerge record.manifest record.automergeSnapshot := by
  rcases ht with hk | ⟨_, hr, hnext⟩
  · exact hi.disk record (hk ▸ hs)
  · rw [hs] at hnext
    cases hnext
    exact records_recoverable hr hn hi.memory

theorem found_recoverable
    (hn : ∀ op, inFlight = some op → NamesItsHeads automerge serde room.state op)
    (hi : RoomRecoverable automerge serde room)
    (hf : Found automerge serde inFlight room (some record)) :
    Recoverable automerge record.manifest record.automergeSnapshot := by
  cases inFlight with
  | none => exact hi.disk record hf.symm
  | some op =>
    rcases hf with ht | ⟨_, rfl, hr⟩
    · exact tried_recoverable (hn op rfl) hi ht record rfl
    · exact hn _ rfl record hr.symm

theorem effect_recoverable (he : Effect automerge serde room event after)
    (hn : event.Meets (NamesItsHeads automerge serde) room)
    (hi : RoomRecoverable automerge serde room) : RoomRecoverable automerge serde after := by
  cases he with
  | skipped => exact hi
  | committed hr hs =>
    have hm := records_recoverable hr hn hi.memory
    refine ⟨hm, fun record hrecord => ?_⟩
    rcases hs with ⟨_, hnone⟩ | hs
    · simp [RoomDurability.stored, hnone] at hrecord
    · rw [hs] at hrecord
      cases hrecord
      exact hm
  | failed hstate _ ht =>
    refine ⟨?_, tried_recoverable hn hi ht⟩
    rw [hstate]
    exact hi.memory
  | changed hstate _ hs =>
    refine ⟨?_, fun record hrecord => hi.disk record (hs ▸ hrecord)⟩
    rw [hstate]
    exact hi.memory
  | @reloaded _ _ record hfound hs hstate =>
    have hrecord := found_recoverable hn hi hfound
    refine ⟨?_, fun other ho => ?_⟩
    · rw [hstate]
      exact hrecord.promote _
    · rw [hs] at ho
      cases ho
      exact hrecord
  | started _ _ hs _ hd he hp =>
    refine ⟨⟨hd ▸ containsHeads_nil, he ▸ containsHeads_nil, fun pending h => ?_⟩, ?_⟩
    · rw [hp] at h
      cases h
    · intro record hrecord
      rw [hs] at hrecord
      cases hrecord

-- Without a record, over one of version 1, or without a journal.
inductive Begins (automerge : Automerge) (serde : ManifestSerde) : RoomDurability → Prop
  | fresh (notebookId : Uuid) (canonicalPath : Option PathBuf)
      (sourceFingerprint : SourceFingerprint) (sourceGeneration : Nat) (genesis : Bytes) :
      journal.appendCursor = none → register serde journal = none →
      Begins automerge serde (journaled journal notebookId canonicalPath sourceFingerprint
        sourceGeneration genesis)
  | migrated
      {legacy : LegacyRecoveryManifestV1} :
      journal.appendCursor = none → latestRecord serde journal = .Recovered recovery →
      recovery.record.manifest = legacy.into →
      ContainsHeads automerge recovery.record.automergeSnapshot legacy.durableHeads →
      ContainsHeads automerge recovery.record.automergeSnapshot legacy.exportedHeads →
      (∀ pending, legacy.pendingFileCheckpoint = some pending →
        ContainsHeads automerge recovery.record.automergeSnapshot pending.exportedHeads) →
      Begins automerge serde (recovered journal recovery)
  | volatile (notebookId : Uuid) :
      ContainsHeads automerge snapshot heads →
      Begins automerge serde (volatile notebookId snapshot heads)

theorem begins_sound (hb : Begins automerge serde room) :
    JournalSound serde room ∧ RoomRecoverable automerge serde room := by
  cases hb with
  | fresh _ _ _ _ _ hcursor hregister =>
    refine ⟨?_, ⟨containsHeads_nil, containsHeads_nil, nofun⟩, ?_⟩
    · rintro _ ⟨⟩
      exact cursorSound_of_no_cursor hcursor
    · intro record hr
      rw [RoomDurability.stored, journaled, fromState, Option.bind_some, hregister] at hr
      cases hr
  | @migrated journal recovery legacy hcursor hlatest hlegacy hd he hp =>
    have hregister := latestRecord_eq_recovered hlatest
    have hr : Recoverable automerge recovery.record.manifest recovery.record.automergeSnapshot := by
      rw [hlegacy]
      exact ⟨hd, he, hp⟩
    refine ⟨?_, hr.promote _, ?_⟩
    · rintro _ ⟨⟩
      exact cursorSound_of_no_cursor hcursor
    · intro other ho
      rw [RoomDurability.stored, recovered, fromState, Option.bind_some, hregister] at ho
      cases ho
      exact hr
  | volatile _ hh =>
    refine ⟨?_, ⟨hh, containsHeads_nil, ?_⟩, ?_⟩
    · intro journal hj
      cases hj
    · intro pending hp
      cases hp
    · intro record hr
      cases hr

abbrev NamingStep (automerge : Automerge) (serde : ManifestSerde) :
    RoomDurability → RoomEvent → RoomDurability → Prop :=
  Guarded (RoomStep automerge serde) fun room event =>
    event.Meets (NamesItsHeads automerge serde) room

-- The heads of the manifest, in memory and on disk, are applied changes.
theorem heads_recoverable {first last : RoomDurability} {events : List RoomEvent}
    (hb : Begins automerge serde first)
    (hr : Run (NamingStep automerge serde) first events last) :
    Recoverable automerge last.state.manifest last.state.durableSnapshot ∧
      ∀ record, last.stored serde = some record →
        Recoverable automerge record.manifest record.automergeSnapshot := by
  have hinv := hr.invariant
    (fun room => JournalSound serde room ∧ RoomRecoverable automerge serde room)
    (fun before event after hi hs => by
      obtain ⟨he, hsound⟩ := roomStep_effect hi.1 hs.2
      exact ⟨hsound, effect_recoverable he hs.1 hi.2⟩)
    (begins_sound hb)
  exact ⟨hinv.2.memory, hinv.2.disk⟩

-- One change from a peer, or an empty snapshot declared to have that change as its head.
def firstManifest (peerChangeCount : Nat) : RecoveryManifest :=
  { RecoveryManifest.new 1 1 (some "/docs/a.ipynb") SCHEMA_VERSION 9 0 with
    durableHeads := [5]
    peerChangeCount := peerChangeCount }

def headsSerde : ManifestSerde := knownSerde [firstManifest 0, firstManifest 1] (by decide +kernel)

def emptyRoom : RoomDurability :=
  journaled (.new "/docs/a.recovery" none) 1 (some "/docs/a.ipynb") 9 0 (referenceSave ∅)

theorem begins_emptyRoom : Begins (referenceAutomerge fun _ => []) he emptyRoom :=
  .fresh 1 (some "/docs/a.ipynb") 9 0 (referenceSave ∅) rfl rfl

theorem heads_recoverable_reload : ∃ outcome journaled recovery reloaded,
    Run (NamingStep (referenceAutomerge fun _ => []) headsSerde) emptyRoom
      [.Returned (.CommitPeerChanges [5]) (.ok outcome), .Restarted none] reloaded ∧
    reloaded = recovered journaled recovery ∧ recovery.record.manifest.durableHeads = [5] ∧
    Recoverable (referenceAutomerge fun _ => []) reloaded.state.manifest
      reloaded.state.durableSnapshot := by
  have hy : yields (call (referenceAutomerge fun _ => []) headsSerde (.works 1)
      (.CommitPeerChanges [5])) emptyRoom (fun outcome after => outcome.isCommitted &&
        after.journal.isSome && after.state.manifest.durableHeads == [5]) = true := by
    decide +kernel
  obtain ⟨outcome, after, hc, ht⟩ := exists_of_yields hy
  simp only [Bool.and_eq_true, beq_iff_eq] at ht
  have hs := stored_of_call (begins_sound begins_emptyRoom).1 hc trivial ht.1.1 ht.1.2
  obtain ⟨journal, hj, hregister⟩ := Option.bind_eq_some_iff.mp hs
  have hl := latestRecord_of_register hregister
  have hr : RoomStep (referenceAutomerge fun _ => []) headsSerde emptyRoom
      (.Returned (.CommitPeerChanges [5]) (.ok outcome)) after :=
    .returned (.ok hc) trivial nofun
  have hrun : Run (NamingStep (referenceAutomerge fun _ => []) headsSerde) emptyRoom
      [.Returned (.CommitPeerChanges [5]) (.ok outcome), .Restarted none]
      (recovered journal.reopen ⟨after.state.record, _⟩) :=
    .cons ⟨trivial, hr⟩
      (.cons ⟨by rintro _ ⟨⟩, .reloaded (.idle hj) hl⟩ (.nil _))
  exact ⟨outcome, _, _, _, hrun, rfl, ht.2,
    (heads_recoverable begins_emptyRoom hrun).1⟩

-- commit_snapshot records the heads it is told.
theorem misdeclared_heads_not_recoverable : ∃ outcome after,
    call (referenceAutomerge fun _ => []) headsSerde (.works 1)
      (.CommitSnapshot (referenceSave ∅) [5] .Daemon) emptyRoom = .ok outcome after ∧
    outcome.isCommitted = true ∧
    ¬ Recoverable (referenceAutomerge fun _ => []) after.state.manifest
      after.state.durableSnapshot := by
  have hy : yields (call (referenceAutomerge fun _ => []) headsSerde (.works 1)
      (.CommitSnapshot (referenceSave ∅) [5] .Daemon)) emptyRoom (fun outcome after =>
        outcome.isCommitted && decide (after.state.manifest.durableHeads = [5] ∧
          after.state.durableSnapshot = referenceSave ∅)) = true := by
    decide +kernel
  obtain ⟨outcome, after, hcall, ht⟩ := exists_of_yields hy
  simp only [Bool.and_eq_true, decide_eq_true_eq] at ht
  refine ⟨outcome, after, hcall, ht.1, fun hr => ?_⟩
  have hc := snapshotContainsHeads_eq_true.mpr hr.durable
  rw [ht.2.1, ht.2.2] at hc
  cases hc

end Nteract.Durability
