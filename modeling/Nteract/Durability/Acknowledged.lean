import Nteract.Durability.Runs

namespace Nteract.Durability

open Lib.Causal Lib.Effect Lib.Transition Recovery Finset

-- Everything a snapshot holds: applied changes and those that wait for a dependency.
def contents (automerge : Automerge) (snapshot : Bytes) : Document :=
  match automerge.load snapshot with
  | .ok document => document
  | .error _ => ∅

variable {automerge : Automerge} {serde : ManifestSerde} {room after : RoomDurability}

variable {snapshot : Bytes} {manifest : RecoveryManifest}

theorem contents_of_load (hl : automerge.load snapshot = .ok document) :
    contents automerge snapshot = document := by
  simp [contents, hl]

theorem contents_of_loadSnapshot (hl : loadSnapshot automerge snapshot = .ok document) :
    contents automerge snapshot = document :=
  contents_of_load (loadSnapshot_eq_ok.mp hl)

@[simp] theorem contents_save (document : Document) :
    contents automerge (automerge.save document) = document :=
  contents_of_load (automerge.load_save document)

def given (automerge : Automerge) : Operation → Document
  | .CommitSnapshot snapshot _ _ => contents automerge snapshot
  | .CommitStagedSource stagedSnapshot _ _ _ _ => contents automerge stagedSnapshot
  | .CommitPeerChanges changes => changes.toFinset
  | .CommitExternalSourceRevision changes _ _ _ => changes.toFinset
  | _ => ∅

-- Merging carries applied changes only: one that waits for a dependency must be on the side that is
-- kept. A room without a record has nothing on disk.
def Lossless (automerge : Automerge) (state : DurabilityState) : Operation → Prop
  | .CommitSnapshot snapshot durableHeads mutation =>
    let durable := contents automerge state.durableSnapshot
    let candidate := contents automerge snapshot
    mutation = .Daemon ∧
      if state.hasDurableRecord then
        durable ⊆ candidate ∪ automerge.getChanges durable ∧
          (automerge.getHeads (candidate ∪ automerge.getChanges durable) =
              state.manifest.durableHeads →
            candidate ⊆ durable ∪ automerge.getChanges candidate)
      else
        durable ⊆ candidate ∧ durableHeads = automerge.getHeads candidate
  | .CommitStagedSource stagedSnapshot stagedHeads _ _ _ =>
    let staged := contents automerge stagedSnapshot
    (∀ head ∈ automerge.getHeads staged, head ∈ stagedHeads) ∧
      staged ⊆ contents automerge state.durableSnapshot ∪ automerge.getChanges staged
  | .CommitPeerChanges changes => state.hasDurableRecord = true ∨ changes = [] ∨
      ¬ changes.toFinset ⊆ contents automerge state.durableSnapshot
  | .PromoteToJournal _ | .ArchiveAndCommitReconciledSource _ _ _ _ _ _ _ => False
  | _ => True

def KnownHeads (automerge : Automerge) (manifest : RecoveryManifest) (snapshot : Bytes) : Prop :=
  ∃ known, known ⊆ contents automerge snapshot ∧ manifest.durableHeads = automerge.getHeads known

theorem knownHeads_nil (hh : manifest.durableHeads = []) : KnownHeads automerge manifest snapshot :=
  ⟨∅, empty_subset _, hh⟩

theorem KnownHeads.congr (hk : KnownHeads automerge manifest snapshot)
    (hh : other.durableHeads = manifest.durableHeads) : KnownHeads automerge other snapshot := by
  obtain ⟨known, hs, hheads⟩ := hk
  exact ⟨known, hs, hh.trans hheads⟩

section Records

variable {op : Operation} {state next : DurabilityState}

theorem merged_eq_union
    (hm : automerge.applyChanges base (missingChanges automerge other base) = .ok merged) :
    merged = base ∪ automerge.getChanges other := by
  rw [merged_eq hm]
  apply Subset.antisymm
  · exact union_subset_union_right fun change hc => (mem_missingChanges.mp hc).1
  · exact union_subset subset_union_left getChanges_subset_merged

theorem promotion_heads (degraded : Option RoomDegradation) (manifest : RecoveryManifest) :
    (promoteUnlessDegraded degraded manifest).durableHeads = manifest.durableHeads := by
  obtain ⟨_, hp⟩ := promoteUnlessDegraded_eq manifest degraded
  rw [hp]

-- What a record adds to: nothing durable is dropped and nothing given is.
structure Adds (automerge : Automerge) (op : Operation) (state next : DurabilityState) : Prop where
  grows : contents automerge state.durableSnapshot ⊆ contents automerge next.durableSnapshot
  takes : given automerge op ⊆ contents automerge next.durableSnapshot
  known : KnownHeads automerge state.manifest state.durableSnapshot →
    KnownHeads automerge next.manifest next.durableSnapshot

theorem adds_of_kept (hg : given automerge op = ∅)
    (hs : next.durableSnapshot = state.durableSnapshot)
    (hh : next.manifest.durableHeads = state.manifest.durableHeads) :
    Adds automerge op state next where
  grows := by rw [hs]
  takes := by rw [hg]; exact empty_subset _
  known hk := by rw [hs]; exact hk.congr hh

theorem adds_of_saved (hs : next.durableSnapshot = automerge.save merged)
    (hh : next.manifest.durableHeads = automerge.getHeads merged)
    (hg : contents automerge state.durableSnapshot ⊆ merged) (ht : given automerge op ⊆ merged) :
    Adds automerge op state next where
  grows := by rwa [hs, contents_save]
  takes := by rwa [hs, contents_save]
  known _ := ⟨merged, by rw [hs, contents_save], hh⟩

theorem records_add (hr : Records automerge op state next) (hl : Lossless automerge state op) :
    Adds automerge op state next := by
  cases hr with
  | promote | archive => exact hl.elim
  | @snapshot snapshot candidate _ _ _ _ _ _ hload hc _ _ =>
    obtain ⟨rfl, hl⟩ := hl
    simp only [contents_of_loadSnapshot hload] at hl
    cases hrec : state.hasDurableRecord with
    | true =>
      rw [if_pos hrec] at hl
      obtain ⟨durable, merged, hdurable, hmerged, rfl, rfl⟩ :=
        (committedSnapshot_daemon hrec).mp hc
      rw [contents_of_loadSnapshot hdurable] at hl
      have hu := merged_eq_union hmerged
      refine adds_of_saved rfl rfl ?_ ?_
      · rw [contents_of_loadSnapshot hdurable, hu]
        exact hl.1
      · simp only [given, contents_of_loadSnapshot hload]
        exact base_subset_merged hmerged
    | false =>
      rw [if_neg (by simp [hrec])] at hl
      rw [committedSnapshot_other (.inl hrec)] at hc
      cases hc
      have hcandidate := contents_of_loadSnapshot hload
      refine ⟨?_, Subset.refl _, fun _ => ⟨candidate, ?_, hl.2⟩⟩
      · rw [hcandidate]
        exact hl.1
      · rw [hcandidate]
  | @stagedSource _ staged _ durable merged _ _ _ _ _ hs _ hd hm _ =>
    have hstaged := contents_of_loadSnapshot hs
    have hdurable := contents_of_loadSnapshot hd
    have hu := merged_eq_union hm
    refine adds_of_saved rfl rfl ?_ ?_
    · rw [hdurable]
      exact base_subset_merged hm
    · have hw := hl.2
      simp only [hstaged, hdurable] at hw
      simp only [given, hstaged, hu]
      exact hw
  | resolve _ hm =>
    exact adds_of_kept rfl rfl ((promotion_heads _ _).trans (resolvedManifest_kept hm).2.2.1)
  | checkpoint => exact adds_of_kept rfl rfl checkpointManifest_kept.2
  | peerChanges hd hb | externalSource hd hb =>
    obtain ⟨_, ha⟩ := batch_subset hb
    refine adds_of_saved rfl rfl (by rwa [contents_of_loadSnapshot hd]) ?_
    intro change hc
    exact ha change (List.mem_toFinset.mp hc)
  | _ => exact adds_of_kept rfl rfl rfl

end Records

theorem daemon_skip_given
    (hl : Lossless automerge room.state (.CommitSnapshot snapshot durableHeads .Daemon))
    (hk : KnownHeads automerge room.state.manifest room.state.durableSnapshot)
    (hload : loadSnapshot automerge snapshot = .ok candidate)
    (hc : committedSnapshot automerge room.state candidate snapshot durableHeads .Daemon = .ok
      (committed, heads)) (hr : room.state.hasDurableRecord = true)
    (hh : room.state.manifest.durableHeads = heads) :
    candidate ⊆ contents automerge room.state.durableSnapshot := by
  obtain ⟨durable, merged, hd, hm, rfl, rfl⟩ := (committedSnapshot_daemon hr).mp hc
  obtain ⟨known, hknown, hheads⟩ := hk
  have hu := merged_eq_union hm
  obtain ⟨-, hl⟩ := hl
  simp only [contents_of_loadSnapshot hload, contents_of_loadSnapshot hd, if_pos hr] at hl
  rw [contents_of_loadSnapshot hd] at hknown ⊢
  have hw := hl.2 (by rw [← hu, hh])
  have ha : automerge.getChanges candidate ⊆ durable := by
    have hs := Automerge.getChanges_eq_of_getHeads_eq (hh.symm.trans hheads)
    calc automerge.getChanges candidate
        ⊆ automerge.getChanges merged := Automerge.getChanges_mono (base_subset_merged hm)
      _ = automerge.getChanges known := hs
      _ ⊆ known := Automerge.getChanges_subset known
      _ ⊆ durable := hknown
  exact hw.trans (union_subset (Subset.refl _) ha)

theorem staged_skip_given
    (hl : Lossless automerge room.state (.CommitStagedSource stagedSnapshot stagedHeads generation
      fingerprint hashes)) (hc : ContainsHeads automerge room.state.durableSnapshot stagedHeads) :
    contents automerge stagedSnapshot ⊆ contents automerge room.state.durableSnapshot := by
  obtain ⟨hheads, hw⟩ := hl
  have ha : automerge.getChanges (contents automerge stagedSnapshot) ⊆
      automerge.getChanges (contents automerge room.state.durableSnapshot) := by
    apply settled_subset_of_frontier
    intro head hh
    have hd := hheads head (mem_sortedList.mpr hh)
    rcases hc with rfl | ⟨_, hdurable, hall⟩
    · cases hd
    · rw [contents_of_load hdurable]
      exact hall head hd
  refine hw.trans (union_subset (Subset.refl _) ?_)
  exact ha.trans (Automerge.getChanges_subset _)

theorem skips_given (hs : Skips automerge op room status) (hl : Lossless automerge room.state op)
    (hk : KnownHeads automerge room.state.manifest room.state.durableSnapshot) :
    given automerge op ⊆ contents automerge room.state.durableSnapshot ∧
      (room.state.hasDurableRecord = true ∨ given automerge op = ∅) := by
  cases hs with
  | promote => exact hl.elim
  | snapshot _ hload hc hr hh =>
    obtain ⟨rfl, -⟩ := id hl
    refine ⟨?_, .inl hr⟩
    rw [given, contents_of_loadSnapshot hload]
    exact daemon_skip_given hl hk hload hc hr hh
  | stagedSource _ _ _ hr _ _ hc =>
    exact ⟨staged_skip_given hl (snapshotContainsHeads_eq_true.mp hc), .inl hr⟩
  | @peerChanges changes durable merged peerHashes _ _ hn hd hb hsame =>
    have hsub : changes.toFinset ⊆ contents automerge room.state.durableSnapshot := by
      obtain ⟨_, ha⟩ := applyRetainedChangeBatch_eq_ok hb
      have hm : merged = contents automerge room.state.durableSnapshot := by
        rcases hsame with rfl | hsame
        · rw [contents_of_loadSnapshot hd, Automerge.applyChanges_eq_ok ha]
          simp
        · rw [← hsame, contents_save]
      intro change hc
      rw [← hm]
      exact (batch_subset hb).2 change (List.mem_toFinset.mp hc)
    refine ⟨hsub, .inl ?_⟩
    rcases hl with hr | hnil | hnew
    · exact hr
    · exact absurd hnil hn
    · exact absurd hsub hnew
  | _ => exact ⟨empty_subset _, .inr rfl⟩

def RoomDurability.readBack (automerge : Automerge) (serde : ManifestSerde)
    (room : RoomDurability) : Document :=
  match room.stored serde with
  | some record => contents automerge record.automergeSnapshot
  | none => ∅

theorem readBack_of_stored (hs : room.stored serde = some record) :
    room.readBack automerge serde = contents automerge record.automergeSnapshot := by
  simp [RoomDurability.readBack, hs]

def durableChanges (automerge : Automerge) (room : RoomDurability) : Document :=
  if room.state.hasDurableRecord then contents automerge room.state.durableSnapshot else ∅

-- The journal has everything the room calls durable.
structure Backed (automerge : Automerge) (serde : ManifestSerde) (room : RoomDurability) : Prop where
  bound : room.journal.isSome = true
  known : KnownHeads automerge room.state.manifest room.state.durableSnapshot
  diskKnown : ∀ record, room.stored serde = some record →
    KnownHeads automerge record.manifest record.automergeSnapshot
  written : durableChanges automerge room ⊆ room.readBack automerge serde

structure Kept (automerge : Automerge) (serde : ManifestSerde) (changes : Document)
    (room : RoomDurability) : Prop where
  memory : changes ⊆ contents automerge room.state.durableSnapshot
  disk : changes ⊆ room.readBack automerge serde

theorem durableChanges_subset : durableChanges automerge room ⊆
    contents automerge room.state.durableSnapshot := by
  unfold durableChanges
  split
  · exact Subset.refl _
  · exact empty_subset _

theorem durableChanges_of_degraded
    (hs : after.state = { room.state with degraded := after.state.degraded }) :
    durableChanges automerge after = durableChanges automerge room := by
  unfold durableChanges
  rw [hs]

section Steps

variable {changes : Document}

theorem bound_of_stored (hs : after.stored serde = some record) : after.journal.isSome = true := by
  obtain ⟨_, hj, _⟩ := Option.bind_eq_some_iff.mp hs
  rw [hj]
  rfl

theorem effect_grows (he : Effect automerge serde room event after)
    (hl : event.Meets (Lossless automerge) room) (hn : ∀ inFlight, event ≠ .Restarted inFlight) :
    contents automerge room.state.durableSnapshot ⊆
      contents automerge after.state.durableSnapshot := by
  cases he with
  | skipped => exact Subset.refl _
  | committed hr => exact (records_add hr hl).grows
  | failed hstate | changed hstate => rw [hstate]
  | reloaded | started => exact absurd rfl (hn _)

-- A record that may be on disk holds these changes, and there is one if any.
structure Holds (automerge : Automerge) (changes : Document) (stored : Option RecoveryRecord) :
    Prop where
  found : ∀ record, stored = some record → changes ⊆ contents automerge record.automergeSnapshot ∧
    KnownHeads automerge record.manifest record.automergeSnapshot
  missing : stored = none → changes = ∅

theorem Holds.readBack (hh : Holds automerge changes (room.stored serde)) :
    changes ⊆ room.readBack automerge serde := by
  unfold RoomDurability.readBack
  cases hs : room.stored serde with
  | none =>
    rw [hh.missing hs]
  | some record => exact (hh.found record hs).1

variable (hb : Backed automerge serde room) (hk : Kept automerge serde changes room)
include hb

theorem stored_of_committed (hs : room.journal = none ∧ after.journal = none ∨
      after.stored serde = some after.state.record) :
    after.stored serde = some after.state.record := by
  rcases hs with ⟨hn, _⟩ | hs
  · have hbound := hb.bound
    rw [hn] at hbound
    cases hbound
  · exact hs

theorem Backed.kept : Kept automerge serde (durableChanges automerge room) room :=
  ⟨durableChanges_subset, hb.written⟩

include hk

theorem holds_stored : Holds automerge changes (room.stored serde) := by
  have hd := hk.disk
  refine ⟨fun record hr => ?_, fun hn => ?_⟩
  · rw [readBack_of_stored hr] at hd
    exact ⟨hd, hb.diskKnown record hr⟩
  · rw [RoomDurability.readBack, hn] at hd
    exact subset_empty.mp hd

theorem holds_tried (hl : Lossless automerge room.state op)
    (ht : Tried automerge serde op room stored) : Holds automerge changes stored := by
  rcases ht with rfl | ⟨_, hr, rfl⟩
  · exact holds_stored hb hk
  · have ha := records_add hr hl
    refine ⟨?_, nofun⟩
    rintro _ ⟨⟩
    exact ⟨hk.memory.trans ha.grows, ha.known hb.known⟩

theorem holds_found (hl : ∀ op, inFlight = some op → Lossless automerge room.state op)
    (hf : Found automerge serde inFlight room stored) : Holds automerge changes stored := by
  cases inFlight with
  | none =>
    cases hf
    exact holds_stored hb hk
  | some op =>
    rcases hf with ht | ⟨_, rfl, _⟩
    · exact holds_tried hb hk (hl op rfl) ht
    · exact (hl _ rfl).elim

theorem effect_kept (he : Effect automerge serde room event after)
    (hl : event.Meets (Lossless automerge) room) : Kept automerge serde changes after := by
  cases he with
  | skipped => exact hk
  | committed hr hstored =>
    have hmemory := hk.memory.trans (records_add hr hl).grows
    refine ⟨hmemory, ?_⟩
    rw [readBack_of_stored (stored_of_committed hb hstored)]
    exact hmemory
  | failed hstate _ htried =>
    refine ⟨?_, (holds_tried hb hk hl htried).readBack⟩
    rw [hstate]
    exact hk.memory
  | changed hstate _ hstored =>
    have hholds := holds_stored hb hk
    rw [← hstored] at hholds
    refine ⟨?_, hholds.readBack⟩
    rw [hstate]
    exact hk.memory
  | @reloaded _ _ record hfound hstored hstate =>
    have hrecord := ((holds_found hb hk hl hfound).found record rfl).1
    refine ⟨?_, ?_⟩
    · rw [hstate]
      exact hrecord
    · rw [readBack_of_stored hstored]
      exact hrecord
  | started hfound =>
    rw [(holds_found hb hk hl hfound).missing rfl]
    exact ⟨empty_subset _, empty_subset _⟩

omit hk

theorem effect_backed (he : Effect automerge serde room event after)
    (hl : event.Meets (Lossless automerge) room) : Backed automerge serde after := by
  have hdegraded : after.state = { room.state with degraded := after.state.degraded } →
      after.journal.isSome = room.journal.isSome →
      Holds automerge (durableChanges automerge room) (after.stored serde) →
      Backed automerge serde after := by
    intro hstate hbound hh
    refine ⟨hbound.trans hb.bound, ?_, fun record hr => (hh.found record hr).2, ?_⟩
    · rw [hstate]
      exact hb.known
    · rw [durableChanges_of_degraded hstate]
      exact hh.readBack
  cases he with
  | skipped => exact hb
  | committed hr hs =>
    have ha := records_add hr hl
    have hs := stored_of_committed hb hs
    refine ⟨bound_of_stored hs, ha.known hb.known, ?_, ?_⟩
    · intro record hrecord
      rw [hs] at hrecord
      cases hrecord
      exact ha.known hb.known
    · rw [readBack_of_stored hs]
      exact durableChanges_subset
  | failed hstate hbound htried =>
    exact hdegraded hstate hbound (holds_tried hb hb.kept hl htried)
  | changed hstate hbound hs =>
    exact hdegraded hstate hbound (hs ▸ holds_stored hb hb.kept)
  | @reloaded _ _ record hfound hs hstate =>
    have hk := ((holds_found hb hb.kept hl hfound).found record rfl).2
    refine ⟨bound_of_stored hs, ?_, ?_, ?_⟩
    · rw [hstate]
      exact hk.congr (promotion_heads _ _)
    · intro other ho
      rw [hs] at ho
      cases ho
      exact hk
    · rw [readBack_of_stored hs]
      refine durableChanges_subset.trans ?_
      rw [hstate]
  | started _ hbound hs hrec hheads =>
    refine ⟨hbound, knownHeads_nil hheads, fun record hr => ?_, ?_⟩
    · rw [hs] at hr
      cases hr
    · simp [durableChanges, hrec]

theorem effect_acknowledged (he : Effect automerge serde room (.Returned op (.ok outcome)) after)
    (hl : Lossless automerge room.state op) :
    Kept automerge serde (given automerge op ∪ durableChanges automerge room) after := by
  cases he with
  | skipped hs =>
    obtain ⟨hg, hrec⟩ := skips_given hs hl hb.known
    refine ⟨union_subset hg durableChanges_subset, union_subset ?_ hb.written⟩
    rcases hrec with hrec | hempty
    · have hw := hb.written
      rw [durableChanges, if_pos hrec] at hw
      exact hg.trans hw
    · rw [hempty]
      exact empty_subset _
  | committed hr hstored =>
    have ha := records_add hr hl
    have hm : given automerge op ∪ durableChanges automerge room ⊆
        contents automerge after.state.durableSnapshot :=
      union_subset ha.takes (durableChanges_subset.trans ha.grows)
    refine ⟨hm, ?_⟩
    rw [readBack_of_stored (stored_of_committed hb hstored)]
    exact hm

end Steps

-- Over a journal without a record, or with one that names heads of its own snapshot.
inductive Opens (automerge : Automerge) (serde : ManifestSerde) : RoomDurability → Prop
  | fresh (notebookId : Uuid) (canonicalPath : Option PathBuf)
      (sourceFingerprint : SourceFingerprint) (sourceGeneration : Nat) (genesis : Bytes) :
      journal.appendCursor = none → register serde journal = none →
      Opens automerge serde (journaled journal notebookId canonicalPath sourceFingerprint
        sourceGeneration genesis)
  | reloaded :
      journal.appendCursor = none → latestRecord serde journal = .Recovered recovery →
      KnownHeads automerge recovery.record.manifest recovery.record.automergeSnapshot →
      Opens automerge serde (recovered journal recovery)

theorem opens_backed (ho : Opens automerge serde room) :
    JournalSound serde room ∧ Backed automerge serde room := by
  cases ho with
  | @fresh journal _ _ _ _ _ hcursor hregister =>
    refine ⟨?_, rfl, knownHeads_nil rfl, ?_, empty_subset _⟩
    · rintro _ ⟨⟩
      exact cursorSound_of_no_cursor hcursor
    · intro record hr
      rw [RoomDurability.stored, journaled, fromState, Option.bind_some, hregister] at hr
      cases hr
  | @reloaded journal recovery hcursor hlatest hk =>
    have hs : (recovered journal recovery).stored serde = some recovery.record :=
      latestRecord_eq_recovered hlatest
    refine ⟨?_, rfl, hk.congr (promotion_heads _ _), ?_, ?_⟩
    · rintro _ ⟨⟩
      exact cursorSound_of_no_cursor hcursor
    · intro record hr
      rw [hs] at hr
      cases hr
      exact hk
    · rw [readBack_of_stored hs]
      exact durableChanges_subset

abbrev LosslessStep (automerge : Automerge) (serde : ManifestSerde) :
    RoomDurability → RoomEvent → RoomDurability → Prop :=
  Guarded (RoomStep automerge serde) fun room event => event.Meets (Lossless automerge) room

theorem run_backed (hr : Run (LosslessStep automerge serde) first events last)
    (hi : JournalSound serde first ∧ Backed automerge serde first) :
    JournalSound serde last ∧ Backed automerge serde last :=
  hr.invariant (fun room => JournalSound serde room ∧ Backed automerge serde room)
    (fun before event after hi hs => by
      obtain ⟨he, hsound⟩ := roomStep_effect hi.1 hs.2
      exact ⟨hsound, effect_backed hi.2 he hs.1⟩) hi

theorem run_kept (hr : Run (LosslessStep automerge serde) first events last)
    (hi : JournalSound serde first ∧ Backed automerge serde first)
    (hk : Kept automerge serde changes first) : Kept automerge serde changes last :=
  (hr.invariant (fun room => (JournalSound serde room ∧ Backed automerge serde room) ∧
      Kept automerge serde changes room)
    (fun before event after hi hs => by
      obtain ⟨he, hsound⟩ := roomStep_effect hi.1.1 hs.2
      exact ⟨⟨hsound, effect_backed hi.1.2 he hs.1⟩, effect_kept hi.1.2 hi.2 he hs.1⟩)
    ⟨hi, hk⟩).2

-- What is acknowledged or was durable is in every later snapshot and reload.
theorem acknowledged_changes_kept {first room acknowledged last : RoomDurability}
    {before later : List RoomEvent} {op : Operation} {outcome : DurableCommitOutcome}
    (ho : Opens automerge serde first)
    (hb : Run (LosslessStep automerge serde) first before room)
    (ha : LosslessStep automerge serde room (.Returned op (.ok outcome)) acknowledged)
    (hl : Run (LosslessStep automerge serde) acknowledged later last) :
    (given automerge op ∪ durableChanges automerge room ⊆
        contents automerge last.state.durableSnapshot ∧
      given automerge op ∪ durableChanges automerge room ⊆ last.readBack automerge serde) ∧
    ∀ event after, LosslessStep automerge serde last event after →
      (∀ inFlight, event ≠ .Restarted inFlight) →
      contents automerge last.state.durableSnapshot ⊆
        contents automerge after.state.durableSnapshot := by
  have hr := run_backed hb (opens_backed ho)
  obtain ⟨he, hsound⟩ := roomStep_effect hr.1 ha.2
  have hack := effect_acknowledged hr.2 he ha.1
  have hbacked := effect_backed hr.2 he ha.1
  have hk := run_kept hl ⟨hsound, hbacked⟩ hack
  refine ⟨⟨hk.memory, hk.disk⟩, fun event after hs hn => ?_⟩
  have hlast := run_backed hl ⟨hsound, hbacked⟩
  exact effect_grows (roomStep_effect hlast.1 hs.2).1 hs.1 hn

-- Change 7 depends on change 5.
def orphanAutomerge : Automerge := referenceAutomerge fun hash => if hash = 7 then [5] else []

def peerManifest (sequence : Nat) (durableHeads : List ChangeHash) : RecoveryManifest :=
  { RecoveryManifest.new sequence 1 (some "/docs/a.ipynb") SCHEMA_VERSION 9 0 with
    durableHeads := durableHeads
    peerChangeCount := 1 }

def orphanSerde : ManifestSerde :=
  knownSerde [peerManifest 1 [], peerManifest 2 [9], peerManifest 1 [5]] (by decide +kernel)

def unrecordedRoom : RoomDurability :=
  journaled (.new "/docs/a.recovery" none) 1 (some "/docs/a.ipynb") 9 0 (referenceSave ∅)

theorem unrecordedRoom_sound : JournalSound orphanSerde unrecordedRoom := by
  rintro _ ⟨⟩
  exact cursorSound_of_no_cursor rfl

theorem acknowledged_change_reloaded : ∃ outcome acknowledged reloaded,
    LosslessStep orphanAutomerge orphanSerde unrecordedRoom
      (.Returned (.CommitPeerChanges [5]) (.ok outcome)) acknowledged ∧
    Run (LosslessStep orphanAutomerge orphanSerde) acknowledged [.Restarted none] reloaded ∧
    5 ∈ reloaded.readBack orphanAutomerge orphanSerde := by
  have hy : yields (call orphanAutomerge orphanSerde (.works 1) (.CommitPeerChanges [5]))
      unrecordedRoom (fun outcome after => outcome.isCommitted && after.journal.isSome) = true := by
    decide +kernel
  obtain ⟨outcome, after, hc, ht⟩ := exists_of_yields hy
  rw [Bool.and_eq_true] at ht
  have hstored := stored_of_call unrecordedRoom_sound hc trivial ht.1 ht.2
  obtain ⟨journal, hj, hr⟩ := Option.bind_eq_some_iff.mp hstored
  have hn : ¬ [5].toFinset ⊆ contents orphanAutomerge unrecordedRoom.state.durableSnapshot := by
    decide +kernel
  have hs : LosslessStep orphanAutomerge orphanSerde unrecordedRoom
      (.Returned (.CommitPeerChanges [5]) (.ok outcome)) after :=
    ⟨.inr (.inr hn), .returned (.ok hc) trivial nofun⟩
  have hrun : Run (LosslessStep orphanAutomerge orphanSerde) after [.Restarted none]
      (recovered journal.reopen ⟨after.state.record, _⟩) :=
    .cons ⟨by rintro _ ⟨⟩, .reloaded (.idle hj) (latestRecord_of_register hr)⟩ (.nil _)
  have hk := acknowledged_changes_kept
    (.fresh 1 (some "/docs/a.ipynb") 9 0 (referenceSave ∅) rfl rfl) (.nil _) hs hrun
  exact ⟨outcome, after, _, hs, hrun, hk.1.2 (mem_union_left _ (by simp [given]))⟩

-- The change waits for change 5, and the next merge does not carry it.
theorem acknowledged_orphan_lost : ∃ outcome acknowledged outcome' after,
    call orphanAutomerge orphanSerde (.works 1) (.CommitPeerChanges [7]) unrecordedRoom =
      .ok outcome acknowledged ∧ outcome.isCommitted = true ∧
    7 ∈ contents orphanAutomerge acknowledged.state.durableSnapshot ∧
    call orphanAutomerge orphanSerde (.works 2) (.CommitSnapshot (referenceSave {9}) [9] .Daemon)
      acknowledged = .ok outcome' after ∧ outcome'.isCommitted = true ∧
    7 ∉ contents orphanAutomerge after.state.durableSnapshot ∧
    7 ∉ after.readBack orphanAutomerge orphanSerde := by
  have hy : yields (call orphanAutomerge orphanSerde (.works 1) (.CommitPeerChanges [7]))
      unrecordedRoom (fun outcome acknowledged => outcome.isCommitted &&
        decide (7 ∈ contents orphanAutomerge acknowledged.state.durableSnapshot) &&
        yields (call orphanAutomerge orphanSerde (.works 2)
          (.CommitSnapshot (referenceSave {9}) [9] .Daemon)) acknowledged fun outcome' after =>
            outcome'.isCommitted && after.journal.isSome &&
            decide (7 ∉ contents orphanAutomerge after.state.durableSnapshot)) = true := by
    decide +kernel
  obtain ⟨outcome, acknowledged, hf, ht⟩ := exists_of_yields hy
  simp only [Bool.and_eq_true, decide_eq_true_eq] at ht
  obtain ⟨⟨hc, hm⟩, hy⟩ := ht
  obtain ⟨outcome', after, hs, ht⟩ := exists_of_yields hy
  simp only [Bool.and_eq_true, decide_eq_true_eq] at ht
  obtain ⟨⟨hk, hj⟩, hn⟩ := ht
  have hsound := sound_of_call unrecordedRoom_sound hf trivial
  refine ⟨outcome, acknowledged, outcome', after, hf, hc, hm, hs, hk, hn, ?_⟩
  rw [readBack_of_stored (stored_of_call hsound hs trivial hk hj)]
  exact hn

end Nteract.Durability
