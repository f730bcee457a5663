import Nteract.Durability.Resolution
import Nteract.SaveProtocol.Theorems

namespace Nteract.SaveProtocol

open Checkpoint Durability Lib.Effect Lib.Transition Recovery Option

variable {automerge : Automerge} {serde : ManifestSerde} {path : PathBuf} {room : RoomDurability}
  {op : Operation}

section Startup

variable {source : Bytes}

theorem agreement_idle (hi : ∀ sequence, world.saves sequence = none)
    (hm : Agrees world.disk path world.shared.state.manifest)
    (hs : ∀ record, world.shared.stored serde = some record →
      Agrees world.disk path record.manifest) : Agreement serde path world := by
  have hn : ∀ sequence stage, world.saves sequence = some stage → False := by
    intro sequence stage h
    rw [hi sequence] at h
    cases h
  exact ⟨fun _ _ h => (hn _ _ h).elim, fun _ _ h => (hn _ _ h).elim,
    fun _ _ h => (hn _ _ h).elim, hm, hs, fun _ _ h => (hn _ _ h).elim,
    fun _ _ h => (hn _ _ h).elim, fun _ _ h => (hn _ _ h).elim,
    fun _ _ h => (hn _ _ h).elim⟩

theorem reloads_agreement {before : RoomDurability} (hj : before.journal = some journal)
    (hd : disk path = some source)
    (hs : ∀ record, before.stored serde = some record → Agrees disk path record.manifest)
    (hr : Reloads serde source journal room) :
    JournalSound serde room ∧ Agreement serde path (freshWorld room disk) := by
  rw [stored_of_journal hj] at hs
  have hk : ∀ record, register serde journal.reopen = some record →
      Agrees disk path record.manifest := hs
  have hc : ∀ other, some journal.reopen = some other → CursorSound serde other := by
    rintro _ ⟨⟩
    exact cursorSound_of_no_cursor rfl
  cases hr with
  | @recovered recovery hl =>
    refine ⟨hc, agreement_idle (fun _ => rfl) ?_ hk⟩
    have ha := hk recovery.record (latestRecord_eq_recovered hl)
    obtain ⟨_, hp⟩ := promoteUnlessDegraded_eq recovery.record.manifest
      (recoveredDegradation recovery.ignoredTail)
    change Agrees disk path (promoteUnlessDegraded _ recovery.record.manifest)
    rw [hp]
    exact ha.congr rfl rfl
  | created =>
    exact ⟨hc, agreement_idle (fun _ => rfl) (agrees_of_source (onDisk_of_eq hd)) hk⟩

theorem Agrees.matchesSource (ha : Agrees disk path manifest) (hd : disk path = some source) :
    manifest.matchesSource (sourceFingerprint source) = true := by
  have hm : ∀ fingerprint, OnDisk disk path fingerprint →
      fingerprint = sourceFingerprint source := by
    intro fingerprint h
    rw [OnDisk, hd, map_some, some.injEq] at h
    exact h.symm
  unfold Agrees at ha
  unfold RecoveryManifest.matchesSource
  cases hp : manifest.pendingFileCheckpoint with
  | none =>
    rw [hp] at ha
    simp [hm _ ha]
  | some =>
    rw [hp] at ha
    rcases ha with ha | ha <;> simp [hm _ ha]

theorem load_ne_conflict
    (hs : ∀ record, register serde journal = some record → Agrees disk path record.manifest)
    (hd : disk path = some source) (recovery : RecoveredJournalRecord)
    (fingerprint : SourceFingerprint) :
    load serde journal (sourceFingerprint source) ≠ .SourceConflict recovery fingerprint := by
  unfold load
  split
  · simp
  · rename_i found hl
    have ha := hs found.record (latestRecord_eq_recovered hl)
    rw [if_pos (ha.matchesSource hd)]
    simp

theorem resolve_conflict
    (hc : call automerge serde io (.ResolveRecoveredFileCheckpoint fingerprint) room = .error
      (.SourceConflict journalSource observedSource) after) :
    room.state.manifest.matchesSource fingerprint = false := by
  cases ha : room.acceptingCommits with
  | false =>
    have hpost : Post (call automerge serde io (.ResolveRecoveredFileCheckpoint fingerprint)) room
        (fun _ _ => False) (fun error _ => error = .ShutdownInProgress) := by
      unfold call resolveRecoveredFileCheckpoint
      simp [ha]
    cases hpost.of_error hc
  | true =>
    cases hp : room.state.manifest.pendingFileCheckpoint with
    | none =>
      have hpost : Post (call automerge serde io (.ResolveRecoveredFileCheckpoint fingerprint))
          room (fun _ _ => True) (fun _ _ => False) := by
        unfold call resolveRecoveredFileCheckpoint
        simp [ha, hp]
      exact (hpost.of_error hc).elim
    | some =>
      rcases (post_resolve ha hp).of_error hc with ⟨hr, _⟩ | ⟨_, _, hcase⟩
      · obtain ⟨hn, ho, _⟩ := resolvedManifest_error hr
        simp [RecoveryManifest.matchesSource, hp, Ne.symm hn, Ne.symm ho]
      · rcases hcase with ⟨he, _⟩ | ⟨_, _, he, _⟩ <;> cases he

-- A resolution, whether it succeeds, fails or dies, keeps the agreement.
theorem resolve_agrees (he : Effectful automerge serde returns) (hsound : JournalSound serde room)
    (hm : Agrees disk path room.state.manifest)
    (hs : ∀ record, room.stored serde = some record → Agrees disk path record.manifest)
    (hd : disk path = some source)
    (hr : returns room (.ResolveRecoveredFileCheckpoint (sourceFingerprint source)) result after) :
    Agrees disk path after.state.manifest ∧
      ∀ record, after.stored serde = some record → Agrees disk path record.manifest := by
  have heffect := he room (.ResolveRecoveredFileCheckpoint (sourceFingerprint source)) result after
    hsound trivial hr
  have hn : ∀ next, Records automerge
      (.ResolveRecoveredFileCheckpoint (sourceFingerprint source)) room.state next →
      Agrees disk path next.manifest := by
    intro next hrecords
    refine agrees_of_source ?_
    rw [records_resolve hrecords]
    exact onDisk_of_eq hd
  cases result with
  | ok =>
    cases effect_ok heffect with
    | skipped _ hsame =>
      subst hsame
      exact ⟨hm, hs⟩
    | recorded hrecords hsame =>
      refine ⟨hn _ hrecords, fun record h => ?_⟩
      rw [hsame record h]
      exact hn _ hrecords
  | error =>
    have hf := effect_error heffect
    rw [hf.manifest]
    refine ⟨hm, fun record h => ?_⟩
    rcases hf.stored record h with ho | ⟨next, hrecords, hrecord⟩
    · exact hs record ho
    · rw [hrecord]
      exact hn next hrecords

theorem resolves_agrees (hsound : JournalSound serde room)
    (hm : Agrees disk path room.state.manifest)
    (hstored : ∀ record, room.stored serde = some record → Agrees disk path record.manifest)
    (hd : disk path = some source) (hr : Resolves automerge serde source room resolution after) :
    JournalSound serde after ∧ Agrees disk path after.state.manifest ∧
      (∀ record, after.stored serde = some record → Agrees disk path record.manifest) := by
  cases hr with
  | nothing => exact ⟨hsound, hm, hstored⟩
  | resolved _ hs | conflict _ hs =>
    exact ⟨(roomStep_effect hsound hs).2,
      resolve_agrees (living_effectful automerge serde) hsound hm hstored hd hs⟩
  | degraded _ _ hs =>
    obtain ⟨hf, hk⟩ :=
      resolve_agrees (living_effectful automerge serde) hsound hm hstored hd hs
    exact ⟨(roomStep_effect hsound hs).2, hf, hk⟩

theorem living_call (hs : Living automerge serde room op result after) :
    ∃ io, CallStep automerge serde room ⟨io, op, result⟩ after := by
  unfold Living at hs
  generalize he : RoomEvent.Returned op result = event at hs
  cases hs with
  | @returned _ event hc =>
    cases he
    exact ⟨event.io, hc⟩
  | marked | gated | reloaded | started => cases he

theorem startupSourceConflict_eq_false
    (hl : ∀ recovery found, loaded ≠ .SourceConflict recovery found)
    (hr : ∀ journalSource observedSource, resolution.map Prod.fst ≠ some (.error (.SourceConflict
      journalSource observedSource))) :
    startupSourceConflict loaded fingerprint resolution = false := by
  cases loaded with
  | SourceConflict recovery found => exact (hl recovery found rfl).elim
  | Match | Unavailable =>
    rcases resolution with _ | ⟨_ | _, _⟩
    · rfl
    · rename_i error
      cases error <;> first | rfl | exact (hr _ _ rfl).elim
    · simp [startupSourceConflict]

theorem resolves_no_conflict (hmemory : Agrees disk path room.state.manifest)
    (hd : disk path = some source) (hr : Resolves automerge serde source room resolution after)
    (journalSource observedSource : SourceFingerprint) :
    resolution.map Prod.fst ≠ some (.error (.SourceConflict journalSource observedSource)) := by
  cases hr with
  | nothing | resolved => simp
  | conflict _ hs =>
    obtain ⟨_, hc⟩ := living_call hs
    cases hc with
    | error hc =>
      have hm := resolve_conflict hc
      rw [hmemory.matchesSource hd] at hm
      cases hm
  | degraded _ hne =>
    intro h
    rw [map_some, some.injEq, Except.error.injEq] at h
    exact hne _ _ h

end Startup

structure SiteAgrees (serde : ManifestSerde) (path : PathBuf) (site : Site) : Prop where
  sound : JournalSound serde site.world.shared
  agreement : Agreement serde path site.world
  idle : site.starting = true → ∀ sequence, site.world.saves sequence = none

def KeepsIntents (site : Site) : SiteEvent → Prop
  | .Save event | .Crash (.Saving event) => KeepsIntent site.world event
  | _ => True

section Runs

variable {site first : Site} {events : List SiteEvent}

theorem siteStep_agrees (ha : SiteAgrees serde path site) (hg : KeepsIntents site event)
    (hs : SiteStep automerge serde path site event siteAfter) :
    SiteAgrees serde path siteAfter := by
  obtain ⟨hsound, hagreement, hi⟩ := ha
  cases hs with
  | saved hs hpaths =>
    exact ⟨saveStep_sound hsound hs, saveStep_agreement (living_effectful automerge serde) hsound
      hagreement hg hpaths hs, nofun⟩
  | stopped hj hd hr =>
    obtain ⟨hsound, hagreement⟩ := reloads_agreement hj hd hagreement.stored hr
    exact ⟨hsound, hagreement, fun _ _ => rfl⟩
  | interrupted hs hpaths hj hd hr =>
    have hdying := saveStep_agreement (dying_effectful automerge serde) hsound hagreement hg
      hpaths hs
    obtain ⟨hsound, hagreement⟩ := reloads_agreement hj hd hdying.stored hr
    exact ⟨hsound, hagreement, fun _ _ => rfl⟩
  | unresolved hd hs hj hr =>
    obtain ⟨_, hstored⟩ := resolve_agrees (dying_effectful automerge serde) hsound
      hagreement.memory hagreement.stored hd hs
    obtain ⟨hsound, hagreement⟩ := reloads_agreement hj hd hstored hr
    exact ⟨hsound, hagreement, fun _ _ => rfl⟩
  | opened _ _ hd hr =>
    obtain ⟨hsound, hm, hstored⟩ := resolves_agrees hsound hagreement.memory hagreement.stored hd hr
    exact ⟨hsound, agreement_idle (hi rfl) hm hstored, nofun⟩

structure Begins (serde : ManifestSerde) (path : PathBuf) (site : Site) : Prop where
  starts : Starts site.world
  sound : JournalSound serde site.world.shared
  source : OnDisk site.world.disk path site.world.shared.state.manifest.sourceFingerprint
  settled : site.world.shared.state.manifest.pendingFileCheckpoint = none
  stored : ∀ record, site.world.shared.stored serde = some record →
    record.manifest.sourceFingerprint = site.world.shared.state.manifest.sourceFingerprint ∧
      record.manifest.pendingFileCheckpoint = none

theorem begins_agrees (hb : Begins serde path first) : SiteAgrees serde path first := by
  have hm := agrees_of_source hb.source
  refine ⟨hb.sound, agreement_idle hb.starts.idle hm fun record h => ?_, fun _ => hb.starts.idle⟩
  obtain ⟨hs, hn⟩ := hb.stored record h
  exact hm.congr hs (hn.trans hb.settled.symm)

-- If no directory sync fails after its rename and no save finds its own intent pending, the disk
-- holds the manifest's bytes or the announced ones, and no startup finds a conflict.
theorem save_protocol_agrees (hb : Begins serde path first)
    (hr : Run (Guarded (SiteStep automerge serde path) KeepsIntents) first events site) :
    Agrees site.world.disk path site.world.shared.state.manifest ∧
      (∀ record, site.world.shared.stored serde = some record →
        Agrees site.world.disk path record.manifest) ∧
      ∀ resolution conflict opened,
        SiteStep automerge serde path site (.Open resolution conflict) opened →
        conflict = false ∧ ∀ journalSource observedSource,
          resolution ≠ some (.error (.SourceConflict journalSource observedSource)) := by
  have ha := hr.invariant (SiteAgrees serde path)
    (fun _ _ _ ha hs => siteStep_agrees ha hs.1 hs.2) (begins_agrees hb)
  refine ⟨ha.agreement.memory, ha.agreement.stored, fun resolution conflict opened hs => ?_⟩
  cases hs with
  | opened _ hj hd hresolves =>
    have hn := resolves_no_conflict ha.agreement.memory hd hresolves
    refine ⟨startupSourceConflict_eq_false ?_ hn, hn⟩
    exact load_ne_conflict
      (fun record h => ha.agreement.stored record ((stored_of_journal hj).trans h)) hd

theorem run_saved {events : List SaveEvent} (hp : SavesPath path world)
    (hb : ∀ event ∈ events, ∀ sequence, event ≠ .Bind sequence)
    (hr : Run (Guarded (SaveStep (durabilityCallbacks (Living automerge serde))) KeepsIntent)
      world events changed) :
    Run (Guarded (SiteStep automerge serde path) KeepsIntents) ⟨world, false⟩
        (events.map .Save) ⟨changed, false⟩ ∧ SavesPath path changed := by
  induction hr with
  | nil => exact ⟨.nil _, hp⟩
  | cons hs _ ih =>
    rw [List.forall_mem_cons] at hb
    have hpaths := saveStep_paths hp hb.1 hs.2
    obtain ⟨hrun, hl⟩ := ih hpaths hb.2
    exact ⟨.cons ⟨hs.1, .saved hs.2 hpaths⟩ hrun, hl⟩

end Runs

-- A notebook with the bytes [1], saved once more with the bytes [2].
def NOTEBOOK : PathBuf := "/docs/a.ipynb"
def OLD_SOURCE : SourceFingerprint :=
  0x4bf5122f344554c53bde2ebb8cd2b7e3d1600ad631c385a5d7cce23c7785459a
def NEW_SOURCE : SourceFingerprint :=
  0xdbc1b4c900ffe48d575b5da5c638040125f65db0fe3e24494b76ea986457d986

theorem fingerprint_old : sourceFingerprint [1] = OLD_SOURCE := by decide +kernel

theorem fingerprint_new : sourceFingerprint [2] = NEW_SOURCE := by decide +kernel

def SAVE : Save := ⟨⟨1, ⟨NOTEBOOK, [], NEW_SOURCE, none⟩, none⟩, [2]⟩

def INTENT : PendingFileCheckpoint := pendingCheckpoint SAVE.claim.preparation .Ordinary

def notebookManifest (sequence : Nat) (source : SourceFingerprint) (saved : Option Nat)
    (pending : Option PendingFileCheckpoint) : RecoveryManifest :=
  { RecoveryManifest.new sequence 1 (some NOTEBOOK) SCHEMA_VERSION source 0 with
    fileSaveSequence := saved
    pendingFileCheckpoint := pending }

def notebookSerde : ManifestSerde :=
  knownSerde [notebookManifest 1 OLD_SOURCE none (some INTENT), notebookManifest 2 OLD_SOURCE none none,
    notebookManifest 2 NEW_SOURCE (some 1) none] (by decide +kernel)

def notebookRoom : RoomDurability :=
  journaled (.new "/docs/a.recovery" none) 1 (some NOTEBOOK) OLD_SOURCE 0 (referenceSave ∅)

def notebookCall (stamp : Nat) (op : Operation) : DurabilityM DurableCommitOutcome :=
  call (referenceAutomerge fun _ => []) notebookSerde (.works stamp) op

def openedWorld : World RoomDurability where
  state := .new none
  disk path := if path = NOTEBOOK then some [1] else none
  saves _ := none
  holder := none
  shared := notebookRoom
  replacements := []

theorem openedWorld_begins : Begins notebookSerde NOTEBOOK ⟨openedWorld, false⟩ := by
  refine ⟨⟨⟨none, rfl⟩, fun _ => rfl, rfl, rfl⟩, ?_, ?_, rfl, fun record h => ?_⟩
  · rintro _ ⟨⟩
    exact cursorSound_of_no_cursor rfl
  · exact congrArg some fingerprint_old
  · cases h

def reservedWorld : World RoomDurability :=
  { openedWorld with state := ⟨1, 0, none⟩ }.put 1 .Reserved

def boundWorld : World RoomDurability := reservedWorld.put 1 (.Bound SAVE)

def lockedWorld : World RoomDurability :=
  { boundWorld.put 1 (.Written SAVE) with holder := some 1 }.put 1 (.Locked SAVE)

def preparedWorld (prepared : RoomDurability) : World RoomDurability :=
  { lockedWorld with shared := prepared }.put 1 (.Prepared SAVE)

def renamedWorld (prepared : RoomDurability) : World RoomDurability :=
  ((preparedWorld prepared).rename SAVE).put 1 (.Renamed SAVE)

abbrev NotebookStep : Site → SiteEvent → Site → Prop :=
  SiteStep (referenceAutomerge fun _ => []) notebookSerde NOTEBOOK

abbrev notebookCallbacks : Callbacks RoomDurability :=
  durabilityCallbacks (Living (referenceAutomerge fun _ => []) notebookSerde)

theorem notebookCall_answers (hc : notebookCall stamp op room = .ok outcome after)
    (ho : op.Opened) :
    Answers (Living (referenceAutomerge fun _ => []) notebookSerde) op context room (.ok ())
      after :=
  .inl ⟨outcome, .returned (.ok hc) ho fun _ he => (by cases he), rfl⟩

def RENAMED : List SiteEvent :=
  [.Save .Reserve, .Save (.Bind 1)] ++ [.Save (.Check 1), .Save (.FastPath 1),
    .Save (.WriteTemp 1), .Save (.Enter 1), .Save (.Prepare 1), .Save (.Rename 1 none)]

theorem reservedWorld_paths : SavesPath NOTEBOOK reservedWorld :=
  update_forall (fun _ _ _ h => (by cases h)) (fun _ h => (by cases h))

theorem boundWorld_paths : SavesPath NOTEBOOK boundWorld := by
  refine update_forall (fun other stage _ h => reservedWorld_paths other stage h) ?_
  rintro _ ⟨⟩
  rfl

theorem run_renamedWorld {prepared : RoomDurability}
    (hp : notebookCall 1 (.PrepareFileCheckpoint INTENT) notebookRoom = .ok outcome prepared) :
    Run (Guarded NotebookStep KeepsIntents) ⟨openedWorld, false⟩ RENAMED
        ⟨renamedWorld prepared, false⟩ ∧ SavesPath NOTEBOOK (renamedWorld prepared) := by
  have hr : SaveStep notebookCallbacks openedWorld .Reserve reservedWorld :=
    .reserved rfl rfl
  have hb : SaveStep notebookCallbacks reservedWorld (.Bind 1) boundWorld :=
    .bound SAVE.claim.target [2] rfl rfl
  have hc : Run (SaveStep notebookCallbacks) boundWorld _ _ :=
    run_checked (put_saves ..) fingerprint_new.symm rfl rfl
  have he : SaveStep notebookCallbacks (boundWorld.put 1 (.Written SAVE)) (.Enter 1)
      lockedWorld := .entered (put_saves ..) rfl rfl (.inr rfl) rfl
  have hprepared : SaveStep notebookCallbacks lockedWorld (.Prepare 1) (preparedWorld prepared) :=
    .prepared (put_saves ..) ⟨.Ordinary, notebookCall_answers hp trivial⟩
  have hrenamed : SaveStep notebookCallbacks (preparedWorld prepared) (.Rename 1 none)
      (renamedWorld prepared) := .renamed (put_saves ..)
  have hf : KeepsIntent lockedWorld (.Prepare 1) := nofun
  have hreplaced : Run (Guarded (SaveStep notebookCallbacks) KeepsIntent)
      (boundWorld.put 1 (.Written SAVE)) [.Enter 1, .Prepare 1, .Rename 1 none]
      (renamedWorld prepared) :=
    .cons ⟨trivial, he⟩ (.cons ⟨hf, hprepared⟩ (.cons ⟨trivial, hrenamed⟩ (.nil _)))
  obtain ⟨hs, hpaths⟩ := run_saved boundWorld_paths (by simp)
    ((hc.guarded (by simp [KeepsIntent])).append hreplaced)
  exact ⟨.cons ⟨trivial, .saved hr reservedWorld_paths⟩
    (.cons ⟨trivial, .saved hb boundWorld_paths⟩ hs), hpaths⟩

theorem renamedWorld_disk (prepared : RoomDurability) :
    (renamedWorld prepared).disk NOTEBOOK = some [2] := by
  simp [renamedWorld, World.rename, World.put, SAVE]

-- The replacement is visible, its commit is not recorded. The next process takes it over.
theorem crash_before_commit : ∃ restarted opened outcome,
    Run (Guarded NotebookStep KeepsIntents) ⟨openedWorld, false⟩
      (RENAMED ++ [.Save (.SyncParent 1 none), .Crash .Idle]) restarted ∧
    Agrees restarted.world.disk NOTEBOOK restarted.world.shared.state.manifest ∧
    NotebookStep restarted (.Open (some (.ok outcome)) false) opened ∧
    opened.world.shared.state.manifest = notebookManifest 2 NEW_SOURCE (some 1) none := by
  have hy : yields (notebookCall 1 (.PrepareFileCheckpoint INTENT)) notebookRoom
      (fun outcome prepared => outcome.isCommitted && cursorDescribes prepared &&
        decide (prepared.state.manifest = notebookManifest 1 OLD_SOURCE none (some INTENT)) &&
        (encodeRecord notebookSerde (notebookManifest 2 NEW_SOURCE (some 1) none)
          prepared.state.durableSnapshot).toOption.isSome) = true := by
    decide +kernel
  obtain ⟨_, prepared, hp, hy⟩ := exists_of_yields hy
  simp only [Bool.and_eq_true, decide_eq_true_eq] at hy
  obtain ⟨⟨⟨hk, hd⟩, hmanifest⟩, he⟩ := hy
  obtain ⟨journal, hj, ht, hl⟩ := recovery_of_call openedWorld_begins.sound hp trivial hk hd
  have hrecovered : (recovered journal.reopen ⟨prepared.state.record, none⟩).state.manifest =
      notebookManifest 1 OLD_SOURCE none (some INTENT) :=
    congrArg (promoteUnlessDegraded none) hmanifest
  have hpending := congrArg RecoveryManifest.pendingFileCheckpoint hrecovered
  obtain ⟨outcome, resolved, hresolve, hm⟩ := resolve_works 2 NEW_SOURCE ht hrecovered
    rfl rfl (by decide) rfl he
  obtain ⟨hr, hpaths⟩ := run_renamedWorld hp
  have hsync : SaveStep notebookCallbacks (renamedWorld prepared) (.SyncParent 1 none) _ :=
    .synced (put_saves ..)
  have hsynced := SiteStep.saved hsync (saveStep_paths hpaths (by simp) hsync)
  have hstopped : NotebookStep ⟨(renamedWorld prepared).put 1 (.Replaced SAVE), false⟩
      (.Crash .Idle) _ := .stopped hj (renamedWorld_disk prepared) (.recovered hl)
  have hc : Run (Guarded NotebookStep KeepsIntents) ⟨renamedWorld prepared, false⟩
      [.Save (.SyncParent 1 none), .Crash .Idle] _ :=
    .cons ⟨trivial, hsynced⟩ (.cons ⟨trivial, hstopped⟩ (.nil _))
  have hrun := hr.append hc
  have hliving : Living (referenceAutomerge fun _ => []) notebookSerde
      (recovered journal.reopen ⟨prepared.state.record, none⟩)
      (.ResolveRecoveredFileCheckpoint (sourceFingerprint [2])) (.ok outcome) resolved := by
    rw [fingerprint_new]
    exact .returned (.ok hresolve) trivial nofun
  have ho : NotebookStep
      ⟨freshWorld (recovered journal.reopen ⟨prepared.state.record, none⟩)
        (renamedWorld prepared).disk, true⟩ _ _ :=
    .opened 0 rfl (renamedWorld_disk prepared)
      (.resolved (fun hn => some_ne_none INTENT (hpending.symm.trans hn)) hliving)
  obtain ⟨ha, _, hs⟩ := save_protocol_agrees openedWorld_begins hrun
  rw [(hs _ _ _ ho).1] at ho
  exact ⟨_, _, outcome, hrun, ha, ho, hm⟩

def unsyncedWorld (prepared : RoomDurability) : World RoomDurability :=
  { renamedWorld prepared with holder := none }.put 1 (.Aborting SAVE "sync failed")

def abortedWorld (prepared aborted : RoomDurability) : World RoomDurability :=
  { unsyncedWorld prepared with shared := aborted }.put 1
    (.Rejected SAVE (abortedOutcome 1 "sync failed" (.ok ())))

-- The intent is aborted after the rename. Nothing knows the bytes on disk, and the next startup
-- takes them for a conflict.
theorem unsynced_replacement_conflicts : ∃ events site restarted opened,
    Begins notebookSerde NOTEBOOK ⟨openedWorld, false⟩ ∧
    Run NotebookStep ⟨openedWorld, false⟩ events site ∧
    site.world.shared.state.manifest.pendingFileCheckpoint = none ∧
    ¬ OnDisk site.world.disk NOTEBOOK site.world.shared.state.manifest.sourceFingerprint ∧
    NotebookStep site (.Crash .Idle) restarted ∧
    NotebookStep restarted (.Open none true) opened := by
  have hyields : yields (notebookCall 1 (.PrepareFileCheckpoint INTENT)) notebookRoom
      (fun _ prepared => yields (notebookCall 2 (.AbortFileCheckpoint 1)) prepared
        fun outcome aborted => outcome.isCommitted && cursorDescribes aborted &&
          decide (aborted.state.manifest = notebookManifest 2 OLD_SOURCE none none)) = true := by
    decide +kernel
  obtain ⟨_, prepared, hprepare, hyields⟩ := exists_of_yields hyields
  obtain ⟨_, aborted, habort, htest⟩ := exists_of_yields hyields
  simp only [Bool.and_eq_true, decide_eq_true_eq] at htest
  obtain ⟨⟨hk, hd⟩, hmanifest⟩ := htest
  obtain ⟨journal, hj, _, hl⟩ := recovery_of_call
    (sound_of_call openedWorld_begins.sound hprepare trivial) habort trivial hk hd
  have hrecovered : (recovered journal.reopen ⟨aborted.state.record, none⟩).state.manifest =
      notebookManifest 2 OLD_SOURCE none none := congrArg (promoteUnlessDegraded none) hmanifest
  obtain ⟨hrenamed, hpaths⟩ := run_renamedWorld hprepare
  have hsync : SaveStep notebookCallbacks (renamedWorld prepared)
      (.SyncParent 1 (some "sync failed")) (unsyncedWorld prepared) :=
    .unsynced "sync failed" (put_saves ..)
  have hpaths := saveStep_paths hpaths (by simp) hsync
  have habort : SaveStep notebookCallbacks (unsyncedWorld prepared) (.Abort 1)
      (abortedWorld prepared aborted) :=
    .aborted (put_saves ..) (notebookCall_answers habort trivial)
  have haborted : Run NotebookStep ⟨renamedWorld prepared, false⟩
      [.Save (.SyncParent 1 (some "sync failed")), .Save (.Abort 1)]
      ⟨abortedWorld prepared aborted, false⟩ :=
    .cons (.saved hsync hpaths) (.cons (.saved habort (saveStep_paths hpaths (by simp) habort))
      (.nil _))
  have hstopped : NotebookStep ⟨abortedWorld prepared aborted, false⟩ (.Crash .Idle)
      ⟨freshWorld (recovered journal.reopen ⟨aborted.state.record, none⟩) (renamedWorld prepared).disk, true⟩ :=
    .stopped hj (renamedWorld_disk prepared) (.recovered hl)
  have hopened : NotebookStep
      ⟨freshWorld (recovered journal.reopen ⟨aborted.state.record, none⟩) (renamedWorld prepared).disk, true⟩ _ _ :=
    .opened 0 rfl (renamedWorld_disk prepared)
      (.nothing (congrArg RecoveryManifest.pendingFileCheckpoint hrecovered))
  have htrue : startupSourceConflict (load notebookSerde journal.reopen NEW_SOURCE) NEW_SOURCE
      none = true := by
    simp only [startupSourceConflict, load, hl, DurabilityState.record, appendedRecord, hmanifest]
    rfl
  rw [fingerprint_new, htrue] at hopened
  refine ⟨_, _, _, _, openedWorld_begins, hrenamed.unguarded.append haborted, ?_, fun hd => ?_,
    hstopped, hopened⟩
  · exact congrArg RecoveryManifest.pendingFileCheckpoint hmanifest
  · change OnDisk (renamedWorld prepared).disk NOTEBOOK aborted.state.manifest.sourceFingerprint at hd
    rw [OnDisk, renamedWorld_disk, hmanifest, map_some, fingerprint_new] at hd
    revert hd
    decide

end Nteract.SaveProtocol
