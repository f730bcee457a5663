import Nteract.Checkpoint.Saves.Theorems

namespace Nteract.Checkpoint

open Lib.Transition Recovery Function Option

variable {σ : Type} {callbacks : Callbacks σ} {base : Nat} {initial : PathBuf → Option Bytes}
  {world before after first middle last : World σ} {event : SaveEvent}
  {events later : List SaveEvent}

def World.Crossed (world : World σ) (sequence : Nat) : Prop :=
  ∃ stage, world.saves sequence = some stage ∧ stage.crossed = true

-- `base` is the sequence the coordinator started with.
structure Ordered (base : Nat) (world : World σ) : Prop where
  claims : Claims world
  base_le : base ≤ world.state.latestBarrierSequence
  barrier_le : world.state.latestBarrierSequence ≤ world.state.latestReservedSequence
  checkpoint_le : ∀ checkpoint, world.state.checkpoint = some checkpoint →
    checkpoint.saveSequence ≤ world.state.latestBarrierSequence
  reserved : ∀ sequence stage, world.saves sequence = some stage →
    base < sequence ∧ sequence ≤ world.state.latestReservedSequence
  locked : ∀ sequence stage, world.saves sequence = some stage →
    (stage.locked = true ↔ world.holder = some sequence)
  holder_le : ∀ sequence, world.holder = some sequence →
    world.state.latestBarrierSequence ≤ sequence
  barrier_crossed : world.state.latestBarrierSequence = base ∨
    world.Crossed world.state.latestBarrierSequence
  checkpoint_crossed : ∀ checkpoint, world.state.checkpoint = some checkpoint →
    checkpoint.saveSequence = base ∨ world.Crossed checkpoint.saveSequence
  superseded : ∀ sequence stage, world.saves sequence = some stage →
    ∀ latest, stage.supersededBy = some latest → sequence < latest ∧ world.Crossed latest

variable {sequence : Nat} {new old : Stage}

theorem crossed_update (hsaves : after.saves = update before.saves sequence (some new))
    (ho : ∀ old, before.saves sequence = some old → old.crossed = false)
    (hc : before.Crossed other) : after.Crossed other := by
  obtain ⟨stage, hs, hcrossed⟩ := hc
  have hne : other ≠ sequence := by
    rintro rfl
    rw [ho stage hs] at hcrossed
    cases hcrossed
  exact ⟨stage, by rw [hsaves, update_of_ne hne, hs], hcrossed⟩

theorem starts_ordered (hs : Starts first) : Ordered first.state.latestBarrierSequence first := by
  obtain ⟨⟨checkpoint, hstate⟩, hi, hfree, _⟩ := hs
  have hn : ∀ sequence stage, first.saves sequence = some stage → False := by
    intro sequence stage h
    rw [hi] at h
    cases h
  have he : ∀ found, first.state.checkpoint = some found →
      found.saveSequence = first.state.latestBarrierSequence := by
    intro found hf
    rw [hstate] at hf ⊢
    change checkpoint = some found at hf
    rw [hf]
    rfl
  refine ⟨fun _ _ h => (hn _ _ h).elim, le_refl _, ?_, ?_, fun _ _ h => (hn _ _ h).elim,
    fun _ _ h => (hn _ _ h).elim, ?_, .inl rfl, ?_, fun _ _ h => (hn _ _ h).elim⟩
  · rw [hstate]
    exact le_refl _
  · exact fun found hf => (he found hf).le
  · intro sequence h
    rw [hfree] at h
    cases h
  · exact fun found hf => .inl (he found hf)

-- One save enters a stage; only a crossing moves the barrier and checkpoint.
theorem ordered_update (hi : Ordered base before) (hc : Claims after)
    (hsaves : after.saves = update before.saves sequence (some new))
    (hplace : (∃ old, before.saves sequence = some old ∧ old.crossed = false ∧
        after.state.latestReservedSequence = before.state.latestReservedSequence) ∨
      sequence = before.state.latestReservedSequence + 1 ∧
        after.state.latestReservedSequence = sequence)
    (hstate : (after.state.latestBarrierSequence = before.state.latestBarrierSequence ∧
        after.state.checkpoint = before.state.checkpoint) ∨
      new.crossed = true ∧ before.state.latestBarrierSequence ≤ sequence ∧
        after.state.latestBarrierSequence = sequence ∧
        (after.state.checkpoint = before.state.checkpoint ∨ ∃ checkpoint,
          after.state.checkpoint = some checkpoint ∧ checkpoint.saveSequence = sequence))
    (hsuper : ∀ latest, new.supersededBy = some latest →
      latest = before.state.latestBarrierSequence ∧ sequence < latest)
    (hn : new.locked = true ↔ after.holder = some sequence)
    (hothers : ∀ other, other ≠ sequence → (before.holder = some other ↔ after.holder = some other))
    (hle : ∀ other, after.holder = some other → after.state.latestBarrierSequence ≤ other) :
    Ordered base after := by
  have hb := hi.base_le
  have hbarrier := hi.barrier_le
  obtain ⟨hold, hlt, hlast, hmore⟩ : (∀ old, before.saves sequence = some old →
      old.crossed = false) ∧ base < sequence ∧ sequence ≤ after.state.latestReservedSequence ∧
      before.state.latestReservedSequence ≤ after.state.latestReservedSequence := by
    rcases hplace with ⟨old, ho, hold, hr⟩ | ⟨hs, hr⟩
    · obtain ⟨hlt, hle⟩ := hi.reserved sequence old ho
      refine ⟨fun found hf => ?_, hlt, by omega, by omega⟩
      rw [ho, some.injEq] at hf
      exact hf ▸ hold
    · refine ⟨fun found hf => ?_, by omega, by omega, by omega⟩
      have hle := (hi.reserved _ _ hf).2
      omega
  have hk : ∀ other, before.Crossed other → after.Crossed other := fun other =>
    crossed_update hsaves hold
  have hself : new.crossed = true → after.Crossed sequence := fun hn =>
    ⟨new, by rw [hsaves, update_self], hn⟩
  refine ⟨hc, by omega, by omega, fun checkpoint h => ?_, ?_, ?_, hle, ?_, fun checkpoint h => ?_, ?_⟩
  · rcases hstate with ⟨he, hs⟩ | ⟨_, hle, he, hs | ⟨_, hf, hsequence⟩⟩
    · exact he ▸ hi.checkpoint_le checkpoint (hs ▸ h)
    · exact he ▸ (hi.checkpoint_le checkpoint (hs ▸ h)).trans hle
    · rw [hf, some.injEq] at h
      exact he ▸ h ▸ hsequence.le
  · rw [hsaves]
    refine update_forall (fun other stage _ h => ?_) ⟨hlt, hlast⟩
    obtain ⟨hlt, hle⟩ := hi.reserved other stage h
    exact ⟨hlt, hle.trans hmore⟩
  · rw [hsaves]
    exact update_forall (fun other stage hne h => (hi.locked other stage h).trans (hothers other hne))
      hn
  · rcases hstate with ⟨he, _⟩ | ⟨hn, _, he, _⟩
    · exact he ▸ hi.barrier_crossed.imp_right (hk _)
    · exact he ▸ .inr (hself hn)
  · rcases hstate with ⟨_, hs⟩ | ⟨hn, _, _, hs | ⟨_, hf, hsequence⟩⟩
    · exact (hi.checkpoint_crossed checkpoint (hs ▸ h)).imp_right (hk _)
    · exact (hi.checkpoint_crossed checkpoint (hs ▸ h)).imp_right (hk _)
    · rw [hf, some.injEq] at h
      rw [← h, hsequence]
      exact .inr (hself hn)
  · rw [hsaves]
    refine update_forall (fun other stage _ h latest hl => ?_) (fun latest hl => ?_)
    · obtain ⟨hlt, hcrossed⟩ := hi.superseded other stage h latest hl
      exact ⟨hlt, hk latest hcrossed⟩
    -- The barrier is past the start because a reserved save is below it.
    · obtain ⟨rfl, hlt⟩ := hsuper latest hl
      rcases hi.barrier_crossed with hb | hb
      · omega
      · exact ⟨hlt, hk _ hb⟩

theorem Ordered.holder_of_locked (hi : Ordered base world) (ho : world.saves sequence = some old)
    (hl : old.locked = true) : world.holder = some sequence :=
  (hi.locked sequence old ho).mp hl

theorem Ordered.barrier_le_of_lock (hi : Ordered base world) (ho : world.saves sequence = some old)
    (hl : world.holder = none ∧ world.state.latestBarrierSequence ≤ sequence ∨ old.locked = true) :
    world.state.latestBarrierSequence ≤ sequence := by
  rcases hl with ⟨_, hle⟩ | hlocked
  · exact hle
  · exact hi.holder_le sequence (hi.holder_of_locked ho hlocked)

theorem saveStep_ordered (hi : Ordered base before) (hs : SaveStep callbacks before event after) :
    Ordered base after := by
  have hc := saveStep_claims hi.claims hs
  cases saveStep_change hi.claims hs with
  | reserve hsequence hf hstate hh hsaves =>
    refine ordered_update hi hc hsaves (.inr ⟨hsequence, by rw [hstate]⟩)
      (.inl (by simp [hstate])) nofun ?_ ?_ ?_ <;> simp [hh, hf]
    rfl
  | quiet hstate hh hsaves =>
    obtain ⟨_, _, _, _, _, _, _, _, _, _⟩ := hi
    refine ⟨hc, ?_, ?_, ?_, ?_, ?_, ?_, ?_, ?_, ?_⟩ <;>
      simp only [World.Crossed, hstate, hh, hsaves] <;> assumption
  | advance ho hsaves hl hold _ _ hsuper hstate hh =>
    refine ordered_update hi hc hsaves (.inl ⟨_, ho, hold, by rw [hstate]⟩)
      (.inl (by simp [hstate])) hsuper ?_ (fun _ _ => by rw [hh]) ?_
    · rw [hl, hh]
      exact hi.locked _ _ ho
    · rw [hh, hstate]
      exact hi.holder_le
  | rename ho hsaves hstate hh =>
    refine ordered_update hi hc hsaves (.inl ⟨_, ho, rfl, by rw [hstate]⟩)
      (.inl (by simp [hstate])) nofun ?_ (fun _ _ => by rw [hh]) ?_
    · rw [hh]
      exact ⟨fun _ => hi.holder_of_locked ho rfl, fun _ => rfl⟩
    · rw [hh, hstate]
      exact hi.holder_le
  | lock ho hsaves hle hstate hf hh =>
    refine ordered_update hi hc hsaves (.inl ⟨_, ho, rfl, by rw [hstate]⟩)
      (.inl (by simp [hstate])) nofun ⟨fun _ => hh, fun _ => rfl⟩ ?_ ?_
    · intro other hne
      simp [hf, hh, hne.symm]
    · intro other h
      rw [hh, some.injEq] at h
      exact hstate ▸ h ▸ hle
  | unlock ho hsaves hl hunlocked _ _ hsuper hstate hh =>
    refine ordered_update hi hc hsaves (.inl ⟨_, ho, not_crossed_of_locked hl, by rw [hstate]⟩)
      (.inl (by simp [hstate])) (by simp [hsuper]) (by simp [hunlocked, hh]) ?_ (by simp [hh])
    intro other hne
    simp [hi.holder_of_locked ho hl, hh, hne.symm]
  | cross ho hsaves hold hnew hunlocked hlock hh hbarrier hreserved hcheckpoint =>
    refine ordered_update hi hc hsaves (.inl ⟨_, ho, hold, hreserved⟩)
      (.inr ⟨hnew, ?_, hbarrier, hcheckpoint⟩) (by simp [not_superseded_of_crossed hnew])
      (by simp [hunlocked, hh]) (fun other hne => ?_) (by simp [hh])
    · exact hi.barrier_le_of_lock ho hlock
    · rcases hlock with ⟨hf, _⟩ | hl
      · rw [hf, hh]
      · simp [hi.holder_of_locked ho hl, hh, hne.symm]

structure Advances (before after : World σ) : Prop where
  barrier : before.state.latestBarrierSequence ≤ after.state.latestBarrierSequence
  checkpoint : ∀ old, before.state.checkpoint = some old →
    ∃ new, after.state.checkpoint = some new ∧ old.saveSequence ≤ new.saveSequence

theorem Advances.of_state (hb : after.state.latestBarrierSequence = before.state.latestBarrierSequence)
    (hc : after.state.checkpoint = before.state.checkpoint) : Advances before after :=
  ⟨hb.ge, fun old ho => ⟨old, hc.trans ho, le_refl _⟩⟩

theorem Advances.trans (hf : Advances first middle) (hl : Advances middle last) :
    Advances first last := by
  refine ⟨hf.barrier.trans hl.barrier, fun old ho => ?_⟩
  obtain ⟨new, hn, hle⟩ := hf.checkpoint old ho
  obtain ⟨newest, hnewest, hle'⟩ := hl.checkpoint new hn
  exact ⟨newest, hnewest, hle.trans hle'⟩

theorem saveStep_advances (hi : Ordered base before)
    (hs : SaveStep callbacks before event after) : Advances before after := by
  cases saveStep_change hi.claims hs with
  | reserve _ _ hstate => exact .of_state (by rw [hstate]) (by rw [hstate])
  | quiet hstate | advance _ _ _ _ _ _ _ hstate | rename _ _ hstate | lock _ _ _ hstate
  | unlock _ _ _ _ _ _ _ hstate => exact .of_state (by rw [hstate]) (by rw [hstate])
  | cross ho _ _ _ _ hlock _ hb _ hc =>
    have hle := hi.barrier_le_of_lock ho hlock
    refine ⟨hb ▸ hle, fun old hold => ?_⟩
    rcases hc with hsame | ⟨new, hn, hsequence⟩
    · exact ⟨old, hsame.trans hold, le_refl _⟩
    · exact ⟨new, hn, hsequence ▸ (hi.checkpoint_le old hold).trans hle⟩

def Stage.rejected : Stage → Bool
  | .Aborting _ _ | .Rejected _ _ | .NotSelected _ | .Abandoned => true
  | _ => false

theorem not_past_of_rejected {stage : Stage} (hr : stage.rejected = true) : stage.past = false := by
  cases stage <;> first | rfl | cases hr

-- The action that rejects a save leaves the files and the checkpoint alone.
def RejectsCleanly (before after : World σ) : Prop :=
  ∀ sequence stage, after.saves sequence = some stage → stage.rejected = true →
    before.saves sequence ≠ some stage →
      after.disk = before.disk ∧ after.state.checkpoint = before.state.checkpoint

theorem saveStep_rejectsCleanly (hc : Claims before)
    (hs : SaveStep callbacks before event after) : RejectsCleanly before after := by
  -- A stage that is past is not the one that was rejected, and the others stay.
  have hp : ∀ {sequence : Nat} {new : Stage}, new.past = true →
      after.saves = update before.saves sequence (some new) →
      RejectsCleanly before after := by
    intro sequence new hn hsaves
    unfold RejectsCleanly
    rw [hsaves]
    refine update_forall (fun other stage _ h _ hne => (hne h).elim) (fun hr => ?_)
    rw [not_past_of_rejected hr] at hn
    cases hn
  cases saveStep_change hc hs with
  | reserve _ _ hstate _ _ hf =>
    exact fun _ _ _ _ _ => ⟨hf.disk, by rw [hstate]⟩
  | quiet hstate _ _ hf | advance _ _ _ _ _ _ _ hstate _ hf
  | lock _ _ _ hstate _ _ hf | unlock _ _ _ _ _ _ _ hstate _ hf =>
    exact fun _ _ _ _ _ => ⟨hf.disk, by rw [hstate]⟩
  | rename _ hsaves => exact hp rfl hsaves
  | cross _ hsaves _ hn => exact hp (past_of_crossed hn) hsaves

-- The rename became visible and syncing the parent directory then failed.
def SaveEvent.failsSync : SaveEvent → Bool
  | .SyncParent _ (some _) => true
  | _ => false

-- A replacement is of a save at most at the barrier, or in the locked section now.
def Settled (world : World σ) : Prop :=
  ∀ replacement ∈ world.replacements,
    (replacement.sequence ≤ world.state.latestBarrierSequence ∨
      world.holder = some replacement.sequence) ∧
    ∃ stage, world.saves replacement.sequence = some stage ∧ stage.past = true

theorem past_update (ho : before.saves sequence = some old)
    (hsaves : after.saves = update before.saves sequence (some new))
    (hpast : old.past = true → new.past = true)
    (hs : ∃ stage, before.saves other = some stage ∧ stage.past = true) :
    ∃ stage, after.saves other = some stage ∧ stage.past = true := by
  obtain ⟨stage, hs, hp⟩ := hs
  rw [hsaves]
  by_cases he : other = sequence
  · subst he
    rw [ho, some.injEq] at hs
    exact ⟨new, update_self .., hpast (hs ▸ hp)⟩
  · exact ⟨stage, by rw [update_of_ne he, hs], hp⟩

theorem settled_keep (hf : SameFiles before after) (hset : Settled before)
    (hplace : ∀ sequence, (∃ stage, before.saves sequence = some stage ∧ stage.past = true) →
      sequence ≤ before.state.latestBarrierSequence ∨ before.holder = some sequence →
      sequence ≤ after.state.latestBarrierSequence ∨ after.holder = some sequence)
    (hpast : ∀ sequence, (∃ stage, before.saves sequence = some stage ∧ stage.past = true) →
      ∃ stage, after.saves sequence = some stage ∧ stage.past = true) : Settled after := by
  intro replacement hr
  rw [hf.replacements] at hr
  obtain ⟨hp, hs⟩ := hset replacement hr
  exact ⟨hplace _ hs hp, hpast _ hs⟩

theorem Settled.lt_of_locked (hset : Settled world) (hi : Ordered base world)
    (ho : world.saves sequence = some old) (hl : old.locked = true) (hp : old.past = false)
    (hr : replacement ∈ world.replacements) : replacement.sequence < sequence := by
  obtain ⟨hplace, _, hs, hpast⟩ := hset replacement hr
  have hh := hi.holder_of_locked ho hl
  have hle := hi.holder_le sequence hh
  have hne : replacement.sequence ≠ sequence := by
    rintro he
    rw [he, ho, some.injEq] at hs
    rw [hs, hpast] at hp
    cases hp
  rcases hplace with h | h
  · omega
  · rw [hh, some.injEq] at h
    exact (hne h.symm).elim

theorem saveStep_settled (hi : Ordered base before) (hset : Settled before)
    (hsync : event.failsSync = false) (hs : SaveStep callbacks before event after) :
    Settled after := by
  cases saveStep_change hi.claims hs with
  | @reserve sequence hsequence hfree hstate hholder hsaves hfiles =>
    refine settled_keep hfiles hset (fun other _ h => ?_) (fun other h => ?_)
    · rw [hstate, hholder, ← hfree]
      exact h
    · obtain ⟨stage, hstage, hpast⟩ := h
      have hle := (hi.reserved other stage hstage).2
      exact ⟨stage, by rw [hsaves, update_of_ne (by omega), hstage], hpast⟩
  | quiet hstate hholder hsaves hfiles =>
    refine settled_keep hfiles hset (fun other _ h => ?_) (fun other h => ?_)
    · rw [hstate, hholder]
      exact h
    · rw [hsaves]
      exact h
  | advance ho hsaves _ _ _ hpast _ hstate hholder hfiles =>
    refine settled_keep hfiles hset (fun other _ h => ?_) (fun _ => past_update ho hsaves hpast)
    rw [hstate, hholder]
    exact h
  | lock ho hsaves _ hstate hfree _ hfiles =>
    refine settled_keep hfiles hset (fun other _ h => ?_) (fun _ => past_update ho hsaves nofun)
    rw [hfree] at h
    rw [hstate]
    exact .inl (h.resolve_right nofun)
  | @unlock sequence old new ho hsaves hlocked _ _ hpast _ hstate hholder hfiles =>
    -- Only a failed sync gives the lock back after the rename.
    have hold : old.past = false := by
      cases hp : old.past with
      | false => rfl
      | true =>
        obtain ⟨_, rfl⟩ := hpast hp
        cases hsync
    refine settled_keep hfiles hset (fun other hother h => ?_)
      (fun _ => past_update ho hsaves fun h => by rw [hold] at h; cases h)
    rw [hstate]
    refine .inl (h.resolve_right fun h => ?_)
    rw [hi.holder_of_locked ho hlocked, some.injEq] at h
    obtain ⟨_, hstage, hp⟩ := hother
    rw [← h, ho, some.injEq] at hstage
    rw [hstage, hp] at hold
    cases hold
  | cross ho hsaves _ hnew _ hlock _ hbarrier _ _ hfiles =>
    have hle := hi.barrier_le_of_lock ho hlock
    refine settled_keep hfiles hset (fun other _ h => .inl ?_)
      (fun _ => past_update ho hsaves fun _ => past_of_crossed hnew)
    rw [hbarrier]
    rcases h with h | h
    · exact h.trans hle
    · rcases hlock with ⟨hfree, _⟩ | hlocked
      · rw [hfree] at h
        cases h
      · rw [hi.holder_of_locked ho hlocked, some.injEq] at h
        exact h.ge
  | @rename sequence save ho hsaves hstate hholder _ hreplacements =>
    intro replacement hr
    rw [hreplacements, List.mem_cons] at hr
    rw [hstate, hholder]
    rcases hr with rfl | hr
    · refine ⟨.inr (hi.holder_of_locked ho rfl), .Renamed save, ?_, rfl⟩
      rw [hsaves, update_self]
    · obtain ⟨hplace, hpast⟩ := hset replacement hr
      exact ⟨hplace, past_update ho hsaves (fun _ => rfl) hpast⟩

-- A file holds what the newest of the saves that replaced it wrote.
structure Newest (initial : PathBuf → Option Bytes) (world : World σ) : Prop where
  untouched : ∀ path, (∀ replacement ∈ world.replacements, replacement.path ≠ path) →
    world.disk path = initial path
  newest : ∀ replacement ∈ world.replacements,
    (∀ other ∈ world.replacements, other.path = replacement.path →
      other.sequence ≤ replacement.sequence) →
    world.disk replacement.path = some replacement.content

theorem Newest.of_sameFiles (hn : Newest initial before) (hf : SameFiles before after) :
    Newest initial after := by
  refine ⟨?_, ?_⟩
  · rw [hf.disk, hf.replacements]
    exact hn.untouched
  · rw [hf.disk, hf.replacements]
    exact hn.newest

theorem Newest.rename (hn : Newest initial before)
    (hlt : ∀ replacement ∈ before.replacements, replacement.sequence < sequence)
    (hd : after.disk = update before.disk path (some content))
    (hr : after.replacements = ⟨sequence, path, content⟩ :: before.replacements) :
    Newest initial after := by
  refine ⟨fun other ho => ?_, fun replacement hm hmax => ?_⟩
  · rw [hr, List.forall_mem_cons] at ho
    rw [hd, update_of_ne ho.1.symm]
    exact hn.untouched other ho.2
  · rw [hr, List.forall_mem_cons] at hmax
    rw [hr, List.mem_cons] at hm
    rw [hd]
    rcases hm with rfl | hm
    · exact update_self ..
    -- An earlier replacement of the same file is not the newest.
    · have hne : replacement.path ≠ path := fun he => by
        have hle := hmax.1 he.symm
        have hearlier := hlt replacement hm
        simp only at hle
        omega
      rw [update_of_ne hne]
      exact hn.newest replacement hm hmax.2

theorem saveStep_newest (hi : Ordered base before) (hset : Settled before)
    (hn : Newest initial before) (hs : SaveStep callbacks before event after) :
    Newest initial after := by
  cases saveStep_change hi.claims hs with
  | reserve _ _ _ _ _ hfiles | quiet _ _ _ hfiles | advance _ _ _ _ _ _ _ _ _ hfiles
  | lock _ _ _ _ _ _ hfiles | unlock _ _ _ _ _ _ _ _ _ hfiles
  | cross _ _ _ _ _ _ _ _ _ _ hfiles => exact hn.of_sameFiles hfiles
  | rename ho _ _ _ hd hreplacements =>
    exact hn.rename (fun _ hr => hset.lt_of_locked hi ho rfl rfl hr) hd hreplacements

structure InOrder (world : World σ) : Prop where
  checkpoint_le : ∀ checkpoint, world.state.checkpoint = some checkpoint →
    checkpoint.saveSequence ≤ world.state.latestBarrierSequence
  barrier_le : world.state.latestBarrierSequence ≤ world.state.latestReservedSequence
  superseded : ∀ sequence stage, world.saves sequence = some stage →
    ∀ latest, stage.supersededBy = some latest → sequence < latest ∧ world.Crossed latest
  rejected : ∀ sequence stage, world.saves sequence = some stage → stage.rejected = true →
    ∀ checkpoint, world.state.checkpoint = some checkpoint → checkpoint.saveSequence ≠ sequence

-- The files hold what the newest saves wrote and nothing of a save that was rejected.
structure FilesInOrder (initial : PathBuf → Option Bytes) (world : World σ) : Prop where
  newest : Newest initial world
  rejected : ∀ sequence stage, world.saves sequence = some stage → stage.rejected = true →
    ∀ replacement ∈ world.replacements, replacement.sequence ≠ sequence

theorem Ordered.inOrder (hi : Ordered base world) : InOrder world := by
  refine ⟨hi.checkpoint_le, hi.barrier_le, hi.superseded, ?_⟩
  rintro _ stage hs hr checkpoint hc rfl
  rcases hi.checkpoint_crossed checkpoint hc with _ | ⟨_, ho, hcrossed⟩
  · have hlt := (hi.reserved _ stage hs).1
    omega
  · rw [hs, some.injEq] at ho
    have hp := past_of_crossed hcrossed
    rw [← ho, not_past_of_rejected hr] at hp
    cases hp

theorem Settled.filesInOrder (hset : Settled world) (hn : Newest initial world) :
    FilesInOrder initial world := by
  refine ⟨hn, ?_⟩
  rintro _ _ hs hr replacement hm rfl
  obtain ⟨_, _, ho, hp⟩ := hset replacement hm
  rw [hs, some.injEq] at ho
  rw [← ho, not_past_of_rejected hr] at hp
  cases hp

theorem run_ordered (hstart : Starts first) (hr : Run (SaveStep callbacks) first events last) :
    Ordered first.state.latestBarrierSequence last :=
  hr.invariant _ (fun _ _ _ hi hs => saveStep_ordered hi hs) (starts_ordered hstart)

theorem run_advances (hi : Ordered base first) (hr : Run (SaveStep callbacks) first events last) :
    Advances first last :=
  hr.relates (Ordered base) Advances (fun _ => .of_state rfl rfl) (fun _ _ _ => Advances.trans)
    (fun _ _ _ hi hs => ⟨saveStep_ordered hi hs, saveStep_advances hi hs⟩) hi

theorem run_filesInOrder (hstart : Starts first) (hr : Run (SaveStep callbacks) first events last)
    (hsync : ∀ event ∈ events, event.failsSync = false) : FilesInOrder first.disk last := by
  have hg : Run (Guarded (SaveStep callbacks) fun _ event => event.failsSync = false)
      first events last := hr.guarded fun event he _ => hsync event he
  obtain ⟨_, hset, hn⟩ := hg.invariant
    (fun world => Ordered first.state.latestBarrierSequence world ∧ Settled world ∧
      Newest first.disk world)
    (fun _ _ _ ⟨hi, hset, hn⟩ ⟨hsync, hs⟩ =>
      ⟨saveStep_ordered hi hs, saveStep_settled hi hset hsync hs, saveStep_newest hi hset hn hs⟩)
    ⟨starts_ordered hstart, by simp [Settled, hstart.history],
      ⟨fun _ _ => rfl, by simp [hstart.history]⟩⟩
  exact hset.filesInOrder hn

-- The counters only advance, a rejection touches nothing, and only a save that crossed supersedes.
-- If no directory sync fails after its rename, a file holds what the newest save wrote.
theorem saves_never_go_backwards (hstart : Starts first)
    (hr : Run (SaveStep callbacks) first events middle)
    (hl : Run (SaveStep callbacks) middle later last) :
    InOrder last ∧ Advances middle last ∧
      (∀ event after, SaveStep callbacks last event after → RejectsCleanly last after) ∧
      ((∀ event ∈ events ++ later, event.failsSync = false) → FilesInOrder first.disk last) := by
  have hi := run_ordered hstart (hr.append hl)
  refine ⟨hi.inOrder, run_advances (run_ordered hstart hr) hl, ?_, ?_⟩
  · exact fun event after hs => saveStep_rejectsCleanly hi.claims hs
  · exact run_filesInOrder hstart (hr.append hl)

-- Callbacks that may answer anything and change nothing.
def answering : Callbacks Unit where
  prepare _ before _ after := after = before
  abort _ before _ after := after = before
  commit _ before _ after := after = before
  commitExisting _ before _ after := after = before
  other before after := after = before

def emptyRoom : World Unit where
  state := .new none
  disk _ := none
  saves _ := none
  holder := none
  shared := ()
  replacements := []

theorem emptyRoom_starts : Starts emptyRoom :=
  ⟨⟨none, rfl⟩, fun _ => rfl, rfl, rfl⟩

def SAVE_OLDER : Save := ⟨⟨1, .forContent "a.ipynb" [] [1], none⟩, [1]⟩
def SAVE_NEWER : Save := ⟨⟨2, .forContent "a.ipynb" [] [2], none⟩, [2]⟩

def twoReserved : World Unit :=
  ({ emptyRoom with state := ⟨2, 0, none⟩ }.put 1 .Reserved).put 2 .Reserved

def twoWritten : World Unit :=
  (twoReserved.put 1 (.Written SAVE_OLDER)).put 2 (.Written SAVE_NEWER)

def TWO_WRITTEN : List SaveEvent :=
  [.Reserve, .Reserve] ++ [.Bind 1, .Check 1, .FastPath 1, .WriteTemp 1] ++
    [.Bind 2, .Check 2, .FastPath 2, .WriteTemp 2]

theorem run_twoWritten : Run (SaveStep answering) emptyRoom TWO_WRITTEN twoWritten := by
  have hr : Run (SaveStep answering) emptyRoom [.Reserve, .Reserve] twoReserved :=
    .cons (.reserved rfl rfl) (.cons (.reserved rfl rfl) (.nil _))
  have ho : Run (SaveStep answering) twoReserved _ _ :=
    run_written 1 SAVE_OLDER.claim.target [1] rfl rfl rfl rfl rfl
  have hn : Run (SaveStep answering) (twoReserved.put 1 (.Written SAVE_OLDER)) _ _ :=
    run_written 2 SAVE_NEWER.claim.target [2] rfl rfl rfl rfl rfl
  exact (hr.append ho).append hn

theorem run_newerRenamed : Run (SaveStep answering) twoWritten
    [.Enter 2, .Prepare 2, .Rename 2 none] (twoWritten.replaced 2 SAVE_NEWER ()) :=
  run_renamed 2 SAVE_NEWER rfl rfl (by decide) rfl rfl

-- The newer save completes first and the older one is told that it is superseded.
theorem newer_save_kept : ∃ later last, Run (SaveStep answering) twoWritten later last ∧
    last.saves 1 = some (.Rejected SAVE_OLDER (.Blocked (some 1) (.Superseded 2))) ∧
    last.disk "a.ipynb" = some [2] ∧ InOrder last ∧ Advances twoWritten last ∧
    FilesInOrder emptyRoom.disk last := by
  have hf : Run (SaveStep answering) (twoWritten.replaced 2 SAVE_NEWER ())
      [.SyncParent 2 none, .Commit 2 none, .Enter 1] _ :=
    .cons (.synced rfl) (.cons (.committed 0 (put_saves ..) rfl)
      (.cons (.superseded rfl rfl rfl) (.nil _)))
  have hr := run_newerRenamed.append hf
  obtain ⟨hin, ha, _, hfiles⟩ :=
    saves_never_go_backwards emptyRoom_starts run_twoWritten hr
  exact ⟨_, _, hr, rfl, rfl, hin, ha, hfiles (by decide)⟩

def newerUnsynced : World Unit :=
  { twoWritten.replaced 2 SAVE_NEWER () with holder := none }.put 2
    (.Aborting SAVE_NEWER "sync failed")

-- The barrier stays when the directory sync fails, so the older save overwrites.
theorem late_save_overwrites_newer : ∃ events last, Starts emptyRoom ∧
    Run (SaveStep answering) emptyRoom events last ∧
    last.replacements.map Replacement.sequence = [1, 2] ∧
    last.disk "a.ipynb" = some [1] ∧ ¬ FilesInOrder emptyRoom.disk last := by
  have hu : Run (SaveStep answering) (twoWritten.replaced 2 SAVE_NEWER ())
      [.SyncParent 2 (some "sync failed")] newerUnsynced :=
    .cons (.unsynced "sync failed" rfl) (.nil _)
  have ho : Run (SaveStep answering) newerUnsynced _ _ :=
    run_renamed 1 SAVE_OLDER rfl rfl (by decide) rfl rfl
  have hr := ((run_twoWritten.append run_newerRenamed).append hu).append ho
  refine ⟨_, _, emptyRoom_starts, hr, rfl, rfl, fun hf => ?_⟩
  have hd := hf.newest.newest ⟨2, "a.ipynb", [2]⟩ (by decide) (by decide)
  revert hd
  decide

end Nteract.Checkpoint
