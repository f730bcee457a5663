import Nteract.Checkpoint.Saves
import Nteract.Lib.Transition

namespace Nteract.Checkpoint

open Lib.Transition Recovery Function

variable {σ : Type} {world before after : World σ} {event : SaveEvent}
  {sequence : Nat}

section Coordinator

variable {state : CheckpointState}

theorem reserve_eq_some (hr : state.reserve = some (sequence, next)) :
    sequence = state.latestReservedSequence + 1 ∧
      next = { state with latestReservedSequence := sequence } := by
  unfold CheckpointState.reserve at hr
  cases hc : checkedAdd state.latestReservedSequence 1 with
  | none => simp [hc] at hr
  | some =>
    rw [hc, Option.map_some, Option.some.injEq] at hr
    obtain ⟨rfl, rfl⟩ := hr
    exact ⟨(checkedAdd_eq_some.mp hc).2, rfl⟩

theorem superseded_eq_none (hs : state.superseded claim = none) :
    state.latestBarrierSequence ≤ claim.sequence := by
  unfold CheckpointState.superseded at hs
  split at hs
  · cases hs
  · omega

theorem superseded_eq_some (hs : state.superseded claim = some outcome) :
    claim.sequence < state.latestBarrierSequence ∧
      outcome = .Blocked (some claim.sequence) (.Superseded state.latestBarrierSequence) := by
  unfold CheckpointState.superseded at hs
  split at hs
  · cases hs
    exact ⟨by assumption, rfl⟩
  · cases hs

-- The claim is overtaken, or the remembered checkpoint is what it would write.
theorem fastPath_eq_some (hf : state.fastPath claim checkpoint = some (outcome, next)) :
    (state.superseded claim = some outcome ∧ next = state) ∨
      (state.latestBarrierSequence ≤ claim.sequence ∧ state.checkpoint = some checkpoint ∧
        claim.target.matchesCheckpoint checkpoint = true ∧
        outcome = .AlreadyCurrent checkpoint claim.sequence ∧
        next = { state with latestBarrierSequence := claim.sequence }) := by
  unfold CheckpointState.fastPath at hf
  cases hs : state.superseded claim with
  | some =>
    rw [hs] at hf
    cases hf
    exact .inl ⟨rfl, rfl⟩
  | none =>
    rw [hs] at hf
    simp only at hf
    split at hf
    · cases hf
      exact .inr ⟨superseded_eq_none hs, by simp_all, by simp_all, rfl, rfl⟩
    · cases hf

end Coordinator

variable {property : Nat → Stage → Prop}

theorem update_forall
    (ho : ∀ other stage, other ≠ sequence → saves other = some stage → property other stage)
    (hn : property sequence new) (other : Nat) (stage : Stage)
    (hs : update saves sequence (some new) other = some stage) : property other stage := by
  by_cases he : other = sequence
  · subst he
    rw [update_self, Option.some.injEq] at hs
    exact hs ▸ hn
  · rw [update_of_ne he] at hs
    exact ho other stage he hs

theorem put_forall {changed : World σ}
    (hold : ∀ other stage, world.saves other = some stage → property other stage)
    (hs : changed.saves = world.saves) (hn : property sequence new) :
    ∀ other stage, (changed.put sequence new).saves other = some stage → property other stage :=
  update_forall (fun other stage _ ho => hold other stage (hs ▸ ho)) hn

theorem saveStep_saves {property : Nat → Save → Prop}
    (hold : ∀ sequence stage, world.saves sequence = some stage →
      ∀ save, stage.save = some save → property sequence save)
    (hs : SaveStep callbacks world event after)
    (hb : ∀ sequence target content, event = .Bind sequence →
      property sequence ⟨world.state.bind sequence target, content⟩) :
    ∀ sequence stage, after.saves sequence = some stage →
      ∀ save, stage.save = some save → property sequence save := by
  cases hs with
  | exhausted | other => exact hold
  | reserved | abandoned | overtaken | unselected | selected =>
    exact put_forall hold rfl fun save hsave => by cases hsave
  | bound =>
    refine put_forall hold rfl fun save hsave => ?_
    cases hsave
    exact hb _ _ _ rfl
  | answered hstage =>
    refine put_forall hold rfl fun save hsave => hold _ _ hstage save ?_
    rw [← hsave]
    split <;> rfl
  | verified hstage | unverified hstage | stale hstage | outdated hstage | written hstage
  | unwritten hstage | superseded hstage | edited hstage | entered hstage | prepared hstage
  | unprepared hstage | renamed hstage | unrenamed _ hstage | synced hstage | unsynced _ hstage
  | committed _ hstage | uncommitted _ hstage | aborted hstage =>
    exact put_forall hold rfl fun save hsave => hold _ _ hstage save hsave

def Claims (world : World σ) : Prop :=
  ∀ sequence stage, world.saves sequence = some stage → ∀ save, stage.save = some save →
    save.claim.sequence = sequence

theorem saveStep_claims (hc : Claims world) (hs : SaveStep callbacks world event after) :
    Claims after :=
  saveStep_saves hc hs fun _ _ _ _ => rfl

-- The save whose content was compared with the fingerprint it declares.
def Stage.checked : Stage → Option Save
  | .Verified save | .Unwritten save | .Written save | .Locked save | .Prepared save
  | .Renamed save | .Replaced save => some save
  | _ => none

theorem checkContent_eq_ok (hc : checkContent claim content = .ok ()) :
    sourceFingerprint content = claim.target.fileFingerprint := by
  unfold checkContent at hc
  split at hc
  · cases hc
  · exact not_not.mp ‹_›

-- A save that got past its check has the content it declares.
def Checked (world : World σ) : Prop :=
  ∀ sequence stage, world.saves sequence = some stage → ∀ save, stage.checked = some save →
    sourceFingerprint save.content = save.claim.target.fileFingerprint

theorem saveStep_checked (hc : Checked world) (hs : SaveStep callbacks world event after) :
    Checked after := by
  cases hs with
  | exhausted | other => exact hc
  | verified _ _ hcheck =>
    refine put_forall hc rfl fun save hsave => ?_
    cases hsave
    exact checkContent_eq_ok hcheck
  | answered =>
    refine put_forall hc rfl fun save hsave => ?_
    split at hsave <;> cases hsave
  | stale hstage | outdated hstage | written hstage | entered hstage | prepared hstage
  | renamed hstage | synced hstage =>
    exact put_forall hc rfl fun save hsave => hc _ _ hstage save hsave
  | reserved | abandoned | bound | unverified | unwritten | superseded | edited | unprepared
  | unrenamed | unsynced | committed | uncommitted | aborted | overtaken | unselected | selected =>
    exact put_forall hc rfl fun save hsave => by cases hsave

-- The replacement of the save is visible, or it passed an ordering boundary.
def Stage.past : Stage → Bool
  | .Renamed _ | .Replaced _ | .Crossed _ _ | .Selected _ => true
  | _ => false

def Stage.supersededBy : Stage → Option Nat
  | .Rejected _ (.Blocked _ (.Superseded latest)) | .NotSelected (.Superseded latest) => some latest
  | _ => none

variable {stage : Stage} {save : Save}

theorem past_of_crossed (hc : stage.crossed = true) : stage.past = true := by
  cases stage <;> first | rfl | cases hc

theorem not_superseded_of_crossed (hc : stage.crossed = true) : stage.supersededBy = none := by
  cases stage <;> first | rfl | cases hc

theorem not_crossed_of_locked (hl : stage.locked = true) : stage.crossed = false := by
  cases stage <;> first | rfl | cases hl

theorem not_superseded_of_check (hc : checkContent save.claim content = .error outcome) :
    (Stage.Rejected save outcome).supersededBy = none := by
  unfold checkContent at hc
  split at hc
  · cases hc
    rfl
  · cases hc

theorem not_superseded_of_verify (hv : verifyExpectedExisting save.claim found = .error outcome) :
    (Stage.Rejected save outcome).supersededBy = none := by
  unfold verifyExpectedExisting at hv
  split at hv
  · cases hv
  · split at hv
    · cases hv
      rfl
    · split at hv <;> cases hv
      rfl

structure SameFiles (before after : World σ) : Prop where
  disk : after.disk = before.disk
  replacements : after.replacements = before.replacements

-- What one action does to the coordinator, the lock, the files and the saves.
inductive Change (before : World σ) (event : SaveEvent) (after : World σ) : Prop
  | reserve {sequence : Nat} : sequence = before.state.latestReservedSequence + 1 →
      before.holder = none →
      after.state = { before.state with latestReservedSequence := sequence } →
      after.holder = none → after.saves = update before.saves sequence (some .Reserved) →
      SameFiles before after → Change before event after
  | quiet : after.state = before.state → after.holder = before.holder →
      after.saves = before.saves → SameFiles before after → Change before event after
  | advance {sequence : Nat} {old new : Stage} : before.saves sequence = some old →
      after.saves = update before.saves sequence (some new) →
      new.locked = old.locked → old.crossed = false → new.crossed = false →
      (old.past = true → new.past = true) →
      (∀ latest, new.supersededBy = some latest →
        latest = before.state.latestBarrierSequence ∧ sequence < latest) →
      after.state = before.state → after.holder = before.holder →
      SameFiles before after → Change before event after
  | rename {sequence : Nat} {save : Save} : before.saves sequence = some (.Prepared save) →
      after.saves = update before.saves sequence (some (.Renamed save)) →
      after.state = before.state → after.holder = before.holder →
      after.disk = update before.disk save.claim.target.path (some save.content) →
      after.replacements = ⟨sequence, save.claim.target.path, save.content⟩ :: before.replacements →
      Change before event after
  | lock {sequence : Nat} {save : Save} : before.saves sequence = some (.Written save) →
      after.saves = update before.saves sequence (some (.Locked save)) →
      before.state.latestBarrierSequence ≤ sequence → after.state = before.state →
      before.holder = none → after.holder = some sequence →
      SameFiles before after → Change before event after
  | unlock {sequence : Nat} {old new : Stage} : before.saves sequence = some old →
      after.saves = update before.saves sequence (some new) →
      old.locked = true → new.locked = false → new.crossed = false →
      (old.past = true → ∃ error, event = .SyncParent sequence (some error)) →
      new.supersededBy = none → after.state = before.state → after.holder = none →
      SameFiles before after → Change before event after
  | cross {sequence : Nat} {old new : Stage} : before.saves sequence = some old →
      after.saves = update before.saves sequence (some new) →
      old.crossed = false → new.crossed = true → new.locked = false →
      (before.holder = none ∧ before.state.latestBarrierSequence ≤ sequence ∨ old.locked = true) →
      after.holder = none → after.state.latestBarrierSequence = sequence →
      after.state.latestReservedSequence = before.state.latestReservedSequence →
      (after.state.checkpoint = before.state.checkpoint ∨ ∃ checkpoint,
        after.state.checkpoint = some checkpoint ∧ checkpoint.saveSequence = sequence) →
      SameFiles before after → Change before event after

theorem saveStep_change (hc : Claims world) (hs : SaveStep callbacks world event after) :
    Change world event after := by
  -- An action on a save that is not overtaken and leaves everything else alone.
  have hquiet : ∀ {changed : World σ} {sequence : Nat} {old new : Stage},
      world.saves sequence = some old → new.locked = old.locked → old.crossed = false →
      new.crossed = false → (old.past = true → new.past = true) → new.supersededBy = none →
      changed.state = world.state → changed.holder = world.holder →
      changed.saves = world.saves → changed.disk = world.disk →
      changed.replacements = world.replacements →
      Change world event (changed.put sequence new) := by
    intro changed sequence old new ho hlocked hold hnew hpast hsuper hstate hholder hsaves hd hr
    refine .advance ho (by rw [World.put, hsaves]) hlocked hold hnew hpast ?_ hstate hholder
      ⟨hd, hr⟩
    intro latest hlatest
    rw [hsuper] at hlatest
    cases hlatest
  have hovertaken : ∀ {save : Save} {sequence : Nat} {old : Stage} {outcome : SaveOutcome},
      world.saves sequence = some old → old.save = some save → old.locked = false →
      old.crossed = false → old.past = false → world.state.superseded save.claim = some outcome →
      Change world event (world.put sequence (.Rejected save outcome)) := by
    intro save sequence old outcome ho hsave hlocked hold hpast hsuper
    obtain ⟨hlt, rfl⟩ := superseded_eq_some hsuper
    rw [hc _ _ ho _ hsave] at hlt
    refine .advance ho rfl hlocked.symm hold rfl (fun h => ?_) ?_ rfl rfl ⟨rfl, rfl⟩
    · rw [hpast] at h
      cases h
    · intro latest hlatest
      cases hlatest
      exact ⟨rfl, hlt⟩
  cases hs with
  | reserved hfree hr =>
    obtain ⟨hsequence, rfl⟩ := reserve_eq_some hr
    exact .reserve hsequence hfree rfl hfree rfl ⟨rfl, rfl⟩
  | exhausted => exact .quiet rfl rfl rfl ⟨rfl, rfl⟩
  | other => exact .quiet rfl rfl rfl ⟨rfl, rfl⟩
  | @abandoned stage _ _ hstage hwaiting =>
    have hlocked : stage.locked = false ∧ stage.crossed = false ∧ stage.past = false := by
      cases stage <;> first | exact ⟨rfl, rfl, rfl⟩ | cases hwaiting
    obtain ⟨hlocked, hcrossed, hpast⟩ := hlocked
    refine hquiet hstage hlocked.symm hcrossed rfl (fun h => ?_) rfl rfl rfl rfl rfl rfl
    rw [hpast] at h
    cases h
  | bound _ _ _ hstage =>
    exact hquiet hstage rfl rfl rfl nofun rfl rfl rfl rfl rfl rfl
  | unverified hstage _ herror =>
    refine hquiet hstage rfl rfl rfl nofun ?_ rfl rfl rfl rfl rfl
    rcases herror with hcheck | ⟨_, hverify⟩
    · exact not_superseded_of_check hcheck
    · exact not_superseded_of_verify hverify
  | edited hstage _ _ _ hverify =>
    exact hquiet hstage rfl rfl rfl nofun (not_superseded_of_verify hverify)
      rfl rfl rfl rfl rfl
  | answered hstage _ hfree hfast =>
    rcases fastPath_eq_some hfast with ⟨hsuper, rfl⟩ | ⟨hle, _, _, rfl, rfl⟩
    · have hblocked := hovertaken hstage rfl rfl rfl rfl hsuper
      obtain ⟨_, rfl⟩ := superseded_eq_some hsuper
      exact hblocked
    · rw [hc _ _ hstage _ rfl] at hle ⊢
      exact .cross hstage rfl rfl rfl rfl (.inl ⟨hfree, hle⟩) hfree rfl rfl (.inl rfl) ⟨rfl, rfl⟩
  | superseded hstage _ hsuper => exact hovertaken hstage rfl rfl rfl rfl hsuper
  | overtaken hstage _ hlt =>
    refine .advance hstage rfl rfl rfl rfl nofun ?_ rfl rfl ⟨rfl, rfl⟩
    intro latest hlatest
    cases hlatest
    exact ⟨rfl, hlt⟩
  | entered hstage hfree hsuper =>
    have hle := superseded_eq_none hsuper
    rw [hc _ _ hstage _ rfl] at hle
    exact .lock hstage rfl hle rfl hfree rfl ⟨rfl, rfl⟩
  | unprepared hstage | unrenamed _ hstage =>
    exact .unlock hstage rfl rfl rfl rfl nofun rfl rfl rfl ⟨rfl, rfl⟩
  | unsynced error hstage =>
    exact .unlock hstage rfl rfl rfl rfl (fun _ => ⟨error, rfl⟩) rfl rfl rfl ⟨rfl, rfl⟩
  | renamed hstage =>
    refine .rename hstage rfl rfl rfl rfl ?_
    rw [← hc _ _ hstage _ rfl]
    rfl
  | committed _ hstage =>
    have hclaim := hc _ _ hstage _ rfl
    exact .cross hstage rfl rfl rfl rfl (.inr rfl) rfl hclaim rfl (.inr ⟨_, rfl, hclaim⟩) ⟨rfl, rfl⟩
  | uncommitted _ hstage =>
    have hclaim := hc _ _ hstage _ rfl
    exact .cross hstage rfl rfl rfl rfl (.inr rfl) rfl hclaim rfl (.inl rfl) ⟨rfl, rfl⟩
  | selected hstage hfree hle =>
    exact .cross hstage rfl rfl rfl rfl (.inl ⟨hfree, hle⟩) hfree rfl rfl (.inr ⟨_, rfl, rfl⟩)
      ⟨rfl, rfl⟩
  | aborted hstage =>
    refine hquiet hstage rfl rfl rfl nofun ?_ rfl rfl rfl rfl rfl
    unfold abortedOutcome
    split <;> rfl
  | verified hstage | stale hstage | outdated hstage | written hstage | unwritten hstage
  | prepared hstage | unselected hstage =>
    exact hquiet hstage rfl rfl rfl nofun rfl rfl rfl rfl rfl rfl
  | synced hstage => exact hquiet hstage rfl rfl rfl (fun _ => rfl) rfl rfl rfl rfl rfl rfl

@[simp] theorem put_put (world : World σ) (sequence : Nat) (old new : Stage) :
    (world.put sequence old).put sequence new = world.put sequence new := by
  simp [World.put]

theorem put_saves (world : World σ) (sequence : Nat) (stage : Stage) :
    (world.put sequence stage).saves sequence = some stage :=
  update_self ..

theorem run_checked (hs : world.saves sequence = some (.Bound save))
    (hcontent : save.claim.target.fileFingerprint = sourceFingerprint save.content)
    (he : save.claim.target.expectedExistingFingerprint = none)
    (hc : save.claim.alreadyCurrent = none) :
    Run (SaveStep callbacks) world [.Check sequence, .FastPath sequence, .WriteTemp sequence]
      (world.put sequence (.Written save)) := by
  have hr : Run (SaveStep callbacks) world
      [.Check sequence, .FastPath sequence, .WriteTemp sequence] _ :=
    .cons (.verified hs (.inr rfl) (by simp [checkContent, hcontent])
        (by simp [verifyExpectedExisting, he]))
      (.cons (.stale (put_saves ..) hc) (.cons (.written (put_saves ..)) (.nil _)))
  simpa only [put_put] using hr

theorem run_written (sequence : Nat) (target : FileCheckpointTarget) (content : Bytes)
    (hf : world.holder = none) (hs : world.saves sequence = some .Reserved)
    (hcontent : target.fileFingerprint = sourceFingerprint content)
    (he : target.expectedExistingFingerprint = none)
    (hc : (world.state.bind sequence target).alreadyCurrent = none) :
    Run (SaveStep callbacks) world
      [.Bind sequence, .Check sequence, .FastPath sequence, .WriteTemp sequence]
      (world.put sequence (.Written ⟨world.state.bind sequence target, content⟩)) := by
  have hr : Run (SaveStep callbacks) world
      [.Bind sequence, .Check sequence, .FastPath sequence, .WriteTemp sequence] _ :=
    .cons (.bound target content hf hs) (run_checked (put_saves ..) hcontent he hc)
  simpa only [put_put] using hr

def World.replaced (world : World σ) (sequence : Nat) (save : Save) (shared : σ) : World σ :=
  { (world.rename save).put sequence (.Renamed save) with
    holder := some sequence
    shared := shared }

theorem run_renamed (sequence : Nat) (save : Save) (hf : world.holder = none)
    (hs : world.saves sequence = some (.Written save))
    (hle : world.state.latestBarrierSequence ≤ save.claim.sequence)
    (he : save.claim.target.expectedExistingFingerprint = none)
    (hp : callbacks.prepare save.claim.preparation world.shared (.ok ()) shared) :
    Run (SaveStep callbacks) world [.Enter sequence, .Prepare sequence, .Rename sequence none]
      (world.replaced sequence save shared) := by
  have hc : world.state.superseded save.claim = none := by
    unfold CheckpointState.superseded
    rw [if_neg (by omega)]
  have hr : Run (SaveStep callbacks) world
      [.Enter sequence, .Prepare sequence, .Rename sequence none] _ :=
    .cons (.entered hs hf hc (.inr rfl) (by simp [verifyExpectedExisting, he]))
      (.cons (.prepared (put_saves ..) hp) (.cons (.renamed (put_saves ..)) (.nil _)))
  simpa [World.replaced, World.put, World.rename] using hr

end Nteract.Checkpoint
