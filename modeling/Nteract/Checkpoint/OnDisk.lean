import Nteract.Checkpoint.Ordering

namespace Nteract.Checkpoint

open Lib.Transition Recovery Function Option

variable {σ : Type} {callbacks : Callbacks σ} {sequence : Nat} {save : Save} {stage : Stage}
  {world before after first : World σ} {event : SaveEvent} {events : List SaveEvent}

def OnDisk (disk : PathBuf → Option Bytes) (path : PathBuf) (fingerprint : SourceFingerprint) :
    Prop :=
  (disk path).map sourceFingerprint = some fingerprint

theorem onDisk_of_eq (hd : disk path = some content) :
    OnDisk disk path (sourceFingerprint content) := by
  rw [OnDisk, hd, map_some]

def Stage.replacing : Stage → Option Save
  | .Renamed save | .Replaced save => some save
  | _ => none

theorem locked_of_replacing (hr : stage.replacing = some save) : stage.locked = true := by
  cases stage <;> first | rfl | cases hr

theorem checked_of_replacing (hr : stage.replacing = some save) : stage.checked = some save := by
  cases stage <;> first | exact hr | cases hr

-- The remembered checkpoint is right unless its file is being replaced.
structure Truthful (world : World σ) : Prop where
  checked : Checked world
  replacing : ∀ sequence stage, world.saves sequence = some stage →
    ∀ save, stage.replacing = some save →
      world.disk save.claim.target.path = some save.content
  remembered : ∀ checkpoint, world.state.checkpoint = some checkpoint →
    OnDisk world.disk checkpoint.path checkpoint.fileFingerprint ∨
      ∃ sequence stage save, world.saves sequence = some stage ∧ stage.replacing = some save ∧
        save.claim.target.path = checkpoint.path

-- A replacement whose sync or commit fails brings the remembered revision, and a revision selected
-- from disk is still there.
def KeepsTruth (world : World σ) : SaveEvent → Prop
  | .SyncParent sequence (some _) | .Commit sequence (some _) =>
    ∀ stage save checkpoint, world.saves sequence = some stage → stage.save = some save →
      world.state.checkpoint = some checkpoint → checkpoint.path = save.claim.target.path →
      checkpoint.fileFingerprint = save.claim.target.fileFingerprint
  | .CommitExisting checkpoint =>
    world.state.latestBarrierSequence ≤ checkpoint.saveSequence →
      OnDisk world.disk checkpoint.path checkpoint.fileFingerprint
  | _ => True

theorem Truthful.onDisk (ht : Truthful world) (hr : world.saves sequence = some stage)
    (hs : stage.replacing = some save) :
    OnDisk world.disk save.claim.target.path save.claim.target.fileFingerprint := by
  rw [← ht.checked sequence stage hr save (checked_of_replacing hs)]
  exact onDisk_of_eq (ht.replacing sequence stage hr save hs)

variable {checkpoint : FileCheckpoint} {target : FileCheckpointTarget}

theorem Truthful.remembered_of_free (ht : Truthful world) (hi : Ordered base world)
    (hf : world.holder = none) (hc : world.state.checkpoint = some checkpoint) :
    OnDisk world.disk checkpoint.path checkpoint.fileFingerprint := by
  rcases ht.remembered checkpoint hc with hd | ⟨_, _, _, hs, hr, _⟩
  · exact hd
  · have hh := hi.holder_of_locked hs (locked_of_replacing hr)
    rw [hf] at hh
    cases hh

theorem truthful_put (ht : Truthful before) (hc : Checked after)
    (hsaves : after.saves = update before.saves sequence (some new))
    (hd : after.disk = before.disk)
    (hcheckpoint : after.state.checkpoint = before.state.checkpoint)
    (hreplacing : (before.saves sequence).bind Stage.replacing = new.replacing) :
    Truthful after := by
  refine ⟨hc, ?_, ?_⟩
  · rw [hsaves, hd]
    refine update_forall (fun other stage _ h => ht.replacing other stage h) (fun save h => ?_)
    rw [← hreplacing, bind_eq_some_iff] at h
    obtain ⟨old, ho, hr⟩ := h
    exact ht.replacing sequence old ho save hr
  · rw [hcheckpoint, hd]
    intro checkpoint hremembered
    refine (ht.remembered checkpoint hremembered).imp_right ?_
    rintro ⟨other, stage, save, hs, hr, hp⟩
    rw [hsaves]
    by_cases he : other = sequence
    · subst he
      rw [hs, bind_some, hr] at hreplacing
      exact ⟨other, new, save, update_self .., hreplacing.symm, hp⟩
    · exact ⟨other, stage, save, by rw [update_of_ne he, hs], hr, hp⟩

theorem Ordered.replacing_unique (hi : Ordered base world)
    (hs : world.saves sequence = some stage) (hl : stage.locked = true)
    (hs' : world.saves other = some stage') (hl' : stage'.locked = true) : other = sequence := by
  have hh := hi.holder_of_locked hs hl
  rw [hi.holder_of_locked hs' hl', some.injEq] at hh
  exact hh

theorem Truthful.remembered_other (ht : Truthful world) (hi : Ordered base world)
    (ho : world.saves sequence = some stage) (hr : stage.replacing = some save)
    (hc : world.state.checkpoint = some checkpoint)
    (hsame : checkpoint.path = save.claim.target.path →
      checkpoint.fileFingerprint = save.claim.target.fileFingerprint) :
    OnDisk world.disk checkpoint.path checkpoint.fileFingerprint := by
  by_cases hp : checkpoint.path = save.claim.target.path
  · rw [hp, hsame hp]
    exact ht.onDisk ho hr
  · rcases ht.remembered checkpoint hc with hd | ⟨_, _, _, hs, hf, hpath⟩
    · exact hd
    · have he := hi.replacing_unique ho (locked_of_replacing hr) hs (locked_of_replacing hf)
      rw [he, ho, some.injEq] at hs
      rw [← hs, hr, some.injEq] at hf
      exact (hp (by rw [hf, hpath])).elim

theorem truthful_end (ht : Truthful before) (hc : Checked after)
    (hs : after.saves = update before.saves sequence (some new))
    (hd : after.disk = before.disk) (hn : new.replacing = none)
    (hr : ∀ checkpoint, after.state.checkpoint = some checkpoint → OnDisk before.disk
      checkpoint.path checkpoint.fileFingerprint) : Truthful after := by
  refine ⟨hc, ?_, ?_⟩
  · rw [hs, hd]
    refine update_forall (fun other stage _ h => ht.replacing other stage h) (fun save h => ?_)
    rw [hn] at h
    cases h
  · rw [hd]
    exact fun checkpoint h => .inl (hr checkpoint h)

theorem truthful_rename (ht : Truthful before) (hk : Checked after) (hi : Ordered base before)
    (ho : before.saves sequence = some (.Prepared save))
    (hsaves : after.saves = update before.saves sequence (some (.Renamed save)))
    (hdisk : after.disk = update before.disk save.claim.target.path (some save.content))
    (hcheckpoint : after.state.checkpoint = before.state.checkpoint) : Truthful after := by
  -- The save holds the lock, so no other one is replacing.
  have hn : ∀ other stage found, before.saves other = some stage →
      stage.replacing = some found → False := by
    intro other stage found hs hr
    have he := hi.replacing_unique ho rfl hs (locked_of_replacing hr)
    rw [he, ho, some.injEq] at hs
    rw [← hs] at hr
    cases hr
  refine ⟨hk, ?_, ?_⟩
  · rw [hsaves]
    refine update_forall (fun other stage _ h found hr => (hn other stage found h hr).elim)
      (fun found h => ?_)
    cases h
    rw [hdisk, update_self]
  · intro checkpoint hc
    rw [hcheckpoint] at hc
    by_cases hp : save.claim.target.path = checkpoint.path
    · exact .inr ⟨sequence, _, save, by rw [hsaves, update_self], rfl, hp⟩
    · rcases ht.remembered checkpoint hc with hd | ⟨other, stage, found, hs, hr, _⟩
      · refine .inl ?_
        rw [OnDisk, hdisk, update_of_ne (Ne.symm hp)]
        exact hd
      · exact (hn other stage found hs hr).elim

theorem saveStep_truthful (hi : Ordered base before) (ht : Truthful before)
    (hk : KeepsTruth before event) (hs : SaveStep callbacks before event after) :
    Truthful after := by
  have hchecked := saveStep_checked ht.checked hs
  have hp : ∀ {sequence : Nat} {old new : Stage}, before.saves sequence = some old →
      after.saves = update before.saves sequence (some new) →
      after.disk = before.disk → after.state.checkpoint = before.state.checkpoint →
      old.replacing = new.replacing → Truthful after := by
    intro sequence old new ho hsaves hd hcheckpoint hreplacing
    refine truthful_put ht hchecked hsaves hd hcheckpoint ?_
    rw [ho, bind_some, hreplacing]
  cases hs with
  | reserved _ hr =>
    obtain ⟨rfl, rfl⟩ := reserve_eq_some hr
    refine truthful_put ht hchecked rfl rfl rfl ?_
    cases hs : before.saves (before.state.latestReservedSequence + 1) with
    | none => rfl
    | some stage =>
      have hle := (hi.reserved _ stage hs).2
      omega
  | exhausted => exact ht
  | other => exact ⟨hchecked, ht.replacing, ht.remembered⟩
  | @abandoned stage _ _ hstage hw =>
    refine hp hstage rfl rfl rfl ?_
    cases stage <;> first | rfl | cases hw
  | answered hstage _ _ hf =>
    rcases fastPath_eq_some hf with ⟨hsuper, rfl⟩ | ⟨_, _, _, rfl, rfl⟩
    · obtain ⟨_, rfl⟩ := superseded_eq_some hsuper
      exact hp hstage rfl rfl rfl rfl
    · exact hp hstage rfl rfl rfl rfl
  | bound _ _ _ hstage => exact hp hstage rfl rfl rfl rfl
  | verified hstage | unverified hstage | stale hstage | outdated hstage | written hstage
  | unwritten hstage | superseded hstage | edited hstage | entered hstage | prepared hstage
  | unprepared hstage | unrenamed _ hstage | synced hstage | aborted hstage | overtaken hstage
  | unselected hstage => exact hp hstage rfl rfl rfl rfl
  | renamed hstage => exact truthful_rename ht hchecked hi hstage rfl rfl rfl
  | unsynced _ hstage | uncommitted _ hstage =>
    exact truthful_end ht hchecked rfl rfl rfl fun checkpoint hc =>
      ht.remembered_other hi hstage rfl hc (hk _ _ checkpoint hstage rfl hc)
  | committed _ hstage =>
    refine truthful_end ht hchecked rfl rfl rfl fun checkpoint hc => ?_
    cases hc
    exact ht.onDisk hstage rfl
  | selected _ _ hle =>
    refine truthful_end ht hchecked rfl rfl rfl fun checkpoint hc => ?_
    cases hc
    exact hk hle

theorem matchesCheckpoint_eq_true :
    target.matchesCheckpoint checkpoint = true ↔ target.path = checkpoint.path ∧
      target.exportedHeads = checkpoint.exportedHeads ∧
      target.fileFingerprint = checkpoint.fileFingerprint := by
  simp [FileCheckpointTarget.matchesCheckpoint, and_assoc]

-- The saves that this action lets report a success are on disk.
def SucceedsOnDisk (before after : World σ) : Prop :=
  ∀ sequence stage, after.saves sequence = some stage → before.saves sequence ≠ some stage →
    ∀ save outcome, stage = .Crossed save outcome → outcome.succeeds = true →
      OnDisk after.disk save.claim.target.path save.claim.target.fileFingerprint

theorem saveStep_succeedsOnDisk (hi : Ordered base before) (ht : Truthful before)
    (hs : SaveStep callbacks before event after) : SucceedsOnDisk before after := by
  have hold : ∀ {property : Nat → Stage → Prop} other stage, before.saves other = some stage →
      before.saves other ≠ some stage → property other stage := fun _ _ h hne => (hne h).elim
  cases hs with
  | exhausted | other => exact hold
  | @answered checkpoint outcome state _ sequence save hstage hcurrent hfree hfast =>
    refine put_forall hold rfl fun _ found result he hsucceeds => ?_
    rcases fastPath_eq_some hfast with ⟨hsuper, rfl⟩ | ⟨_, hc, hm, rfl, rfl⟩
    · obtain ⟨_, rfl⟩ := superseded_eq_some hsuper
      cases he
    -- Nobody holds the lock, so the remembered checkpoint is on disk.
    · cases he
      obtain ⟨hpath, _, hf⟩ := matchesCheckpoint_eq_true.mp hm
      rw [hpath, hf]
      exact ht.remembered_of_free hi hfree hc
  | committed _ hstage =>
    refine put_forall hold rfl fun _ found result he _ => ?_
    cases he
    exact ht.onDisk hstage rfl
  | uncommitted =>
    refine put_forall hold rfl fun _ found result he hsucceeds => ?_
    cases he
    cases hsucceeds
  | reserved | abandoned | bound | verified | unverified | stale | outdated | written | unwritten
  | superseded | edited | entered | prepared | unprepared | renamed | unrenamed | synced
  | unsynced | aborted | overtaken | unselected | selected =>
    exact put_forall hold rfl fun _ found result he => by cases he

-- A save reports a success only while the bytes at its path have its fingerprint.
theorem successful_save_on_disk {outcome : SaveOutcome} (hstart : Starts first)
    (hinitial : ∀ checkpoint, first.state.checkpoint = some checkpoint →
      OnDisk first.disk checkpoint.path checkpoint.fileFingerprint)
    (hr : Run (Guarded (SaveStep callbacks) KeepsTruth) first events before)
    (hs : SaveStep callbacks before event after)
    (hold : before.saves sequence ≠ some (.Crossed save outcome))
    (hnew : after.saves sequence = some (.Crossed save outcome))
    (hsucceeds : outcome.succeeds = true) :
    OnDisk after.disk save.claim.target.path save.claim.target.fileFingerprint := by
  have hf : Truthful first := by
    refine ⟨fun other stage h => ?_, fun other stage h => ?_, fun checkpoint hc =>
      .inl (hinitial checkpoint hc)⟩
    · rw [hstart.idle] at h
      cases h
    · rw [hstart.idle] at h
      cases h
  obtain ⟨hi, ht⟩ := hr.invariant
    (fun world => Ordered first.state.latestBarrierSequence world ∧ Truthful world)
    (fun _ _ _ ⟨hi, ht⟩ ⟨hk, hs⟩ => ⟨saveStep_ordered hi hs, saveStep_truthful hi ht hk hs⟩)
    ⟨starts_ordered hstart, hf⟩
  exact saveStep_succeedsOnDisk hi ht hs sequence _ hnew hold save outcome rfl hsucceeds

theorem fastPath_of_matches {state : CheckpointState}
    (hle : state.latestBarrierSequence ≤ claim.sequence) (hc : state.checkpoint = some checkpoint)
    (hm : claim.target.matchesCheckpoint checkpoint = true) : state.fastPath claim checkpoint =
      some (.AlreadyCurrent checkpoint claim.sequence, state.fenced claim.sequence) := by
  have hs : state.superseded claim = none := by
    rw [CheckpointState.superseded, if_neg (by omega)]
  simp [CheckpointState.fastPath, CheckpointState.fenced, hs, hc, hm]

theorem run_verified (sequence : Nat) (target : FileCheckpointTarget) (content : Bytes)
    (hf : world.holder = none) (hs : world.saves sequence = some .Reserved)
    (hcontent : target.fileFingerprint = sourceFingerprint content)
    (he : target.expectedExistingFingerprint = none)
    (hc : world.state.checkpoint = some checkpoint)
    (hm : target.matchesCheckpoint checkpoint = true) :
    Run (SaveStep callbacks) world [.Bind sequence, .Check sequence]
      (world.put sequence (.Verified ⟨⟨sequence, target, some checkpoint⟩, content⟩)) := by
  have hr : Run (SaveStep callbacks) world [.Bind sequence, .Check sequence] _ :=
    .cons (.bound target content hf hs) (.cons (.verified (put_saves ..) (.inr rfl)
      (by simp [checkContent, CheckpointState.bind, hcontent])
      (by simp [verifyExpectedExisting, CheckpointState.bind, he])) (.nil _))
  simpa only [put_put, CheckpointState.bind, hc, filter_some, hm, if_true] using hr

theorem step_alreadyCurrent {content : Bytes} (hf : world.holder = none)
    (hs : world.saves sequence = some (.Verified ⟨⟨sequence, target, some checkpoint⟩, content⟩))
    (hle : world.state.latestBarrierSequence ≤ sequence)
    (hc : world.state.checkpoint = some checkpoint)
    (hm : target.matchesCheckpoint checkpoint = true) :
    SaveStep callbacks world (.FastPath sequence)
      ({ world with state := world.state.fenced sequence }.put sequence
        (.Crossed ⟨⟨sequence, target, some checkpoint⟩, content⟩
          (.AlreadyCurrent checkpoint sequence))) :=
  .answered hs rfl hf (fastPath_of_matches hle hc hm)

def oneWritten : World Unit :=
  ({ emptyRoom with state := ⟨1, 0, none⟩ }.put 1 .Reserved).put 1 (.Written SAVE_OLDER)

def olderReplaced : World Unit := (oneWritten.replaced 1 SAVE_OLDER ()).put 1 (.Replaced SAVE_OLDER)

def CHECKPOINT_OLDER : FileCheckpoint := SAVE_OLDER.claim.checkpoint 0

def olderSaved : World Unit :=
  { olderReplaced with
    state := olderReplaced.state.published CHECKPOINT_OLDER
    holder := none }.put 1 (.Crossed SAVE_OLDER (.Saved CHECKPOINT_OLDER))

def OLDER_SAVED : List SaveEvent :=
  [.Reserve] ++ [.Bind 1, .Check 1, .FastPath 1, .WriteTemp 1] ++
    [.Enter 1, .Prepare 1, .Rename 1 none] ++ [.SyncParent 1 none, .Commit 1 none]

theorem run_olderSaved : Run (SaveStep answering) emptyRoom OLDER_SAVED olderSaved := by
  have hr : Run (SaveStep answering) emptyRoom [.Reserve] _ :=
    .cons (.reserved rfl rfl) (.nil _)
  have hw : Run (SaveStep answering)
      ({ emptyRoom with state := ⟨1, 0, none⟩ }.put 1 .Reserved) _ oneWritten :=
    run_written 1 SAVE_OLDER.claim.target [1] rfl rfl rfl rfl rfl
  have hrenamed : Run (SaveStep answering) oneWritten _ _ :=
    run_renamed 1 SAVE_OLDER rfl rfl (by decide) rfl rfl
  have hc : Run (SaveStep answering) (oneWritten.replaced 1 SAVE_OLDER ())
      [.SyncParent 1 none, .Commit 1 none] olderSaved :=
    .cons (.synced rfl) (.cons (.committed 0 (put_saves ..) rfl) (.nil _))
  exact ((hr.append hw).append hrenamed).append hc

def SAVE_AGAIN (sequence : Nat) : Save :=
  ⟨⟨sequence, SAVE_OLDER.claim.target, some CHECKPOINT_OLDER⟩, [1]⟩

theorem again_matches : SAVE_OLDER.claim.target.matchesCheckpoint CHECKPOINT_OLDER = true :=
  matchesCheckpoint_eq_true.mpr ⟨rfl, rfl, rfl⟩

def againReserved : World Unit :=
  { olderSaved with state := ⟨2, 1, some CHECKPOINT_OLDER⟩ }.put 2 .Reserved

theorem repeated_save_on_disk : ∃ before after,
    SaveStep answering before (.FastPath 2) after ∧
    after.saves 2 = some (.Crossed (SAVE_AGAIN 2) (.AlreadyCurrent CHECKPOINT_OLDER 2)) ∧
    OnDisk after.disk "a.ipynb" (sourceFingerprint [1]) := by
  have hr : Run (SaveStep answering) olderSaved [.Reserve] againReserved :=
    .cons (.reserved rfl rfl) (.nil _)
  have hv : Run (SaveStep answering) againReserved _ _ :=
    run_verified 2 SAVE_OLDER.claim.target [1] rfl rfl rfl rfl rfl again_matches
  have hrun := (run_olderSaved.append hr).append hv
  have hs : SaveStep answering (againReserved.put 2 (.Verified (SAVE_AGAIN 2))) (.FastPath 2)
      _ := step_alreadyCurrent rfl (put_saves ..) (by decide) rfl again_matches
  refine ⟨_, _, hs, put_saves .., successful_save_on_disk emptyRoom_starts
    nofun (hrun.guarded ?_) hs (fun h => ?_) (put_saves ..) rfl⟩
  · simp [OLDER_SAVED, KeepsTruth]
  · cases h

def SAVE_OTHER : Save := ⟨⟨2, .forContent "a.ipynb" [] [2], none⟩, [2]⟩

def otherWritten : World Unit := againReserved.put 2 (.Written SAVE_OTHER)

def otherReplaced : World Unit :=
  (otherWritten.replaced 2 SAVE_OTHER ()).put 2 (.Replaced SAVE_OTHER)

-- A second revision became visible, but recording it failed.
def otherUncommitted : World Unit :=
  { otherReplaced with state := otherReplaced.state.fenced 2, holder := none }.put 2
    (.Crossed SAVE_OTHER (.Blocked (some 2) (.Commit "journal full")))

theorem other_fingerprint : sourceFingerprint [2] ≠ sourceFingerprint [1] := by
  decide +kernel

theorem run_otherUncommitted : Run (SaveStep answering) olderSaved
    ([.Reserve] ++ [.Bind 2, .Check 2, .FastPath 2, .WriteTemp 2] ++
      [.Enter 2, .Prepare 2, .Rename 2 none] ++
      [.SyncParent 2 none, .Commit 2 (some "journal full")]) otherUncommitted := by
  have hr : Run (SaveStep answering) olderSaved [.Reserve] againReserved :=
    .cons (.reserved rfl rfl) (.nil _)
  have ho : SAVE_OTHER.claim.target.matchesCheckpoint CHECKPOINT_OLDER = false := by
    rw [Bool.eq_false_iff]
    exact fun h => other_fingerprint (matchesCheckpoint_eq_true.mp h).2.2
  have hb : againReserved.state.bind 2 SAVE_OTHER.claim.target = SAVE_OTHER.claim := by
    have hn : (some CHECKPOINT_OLDER).filter
        (fun checkpoint => SAVE_OTHER.claim.target.matchesCheckpoint checkpoint) = none := by
      simp [ho]
    exact congrArg (SaveClaim.mk 2 SAVE_OTHER.claim.target) hn
  have hw : Run (SaveStep answering) againReserved
      [.Bind 2, .Check 2, .FastPath 2, .WriteTemp 2] otherWritten := by
    have hrun : Run (SaveStep answering) againReserved _ _ :=
      run_written 2 SAVE_OTHER.claim.target [2] rfl rfl rfl rfl (by rw [hb]; rfl)
    rw [hb] at hrun
    exact hrun
  have hrenamed : Run (SaveStep answering) otherWritten _ _ :=
    run_renamed 2 SAVE_OTHER rfl rfl (by decide) rfl rfl
  have hu : Run (SaveStep answering) (otherWritten.replaced 2 SAVE_OTHER ())
      [.SyncParent 2 none, .Commit 2 (some "journal full")] otherUncommitted :=
    .cons (.synced rfl) (.cons (.uncommitted 0 (put_saves ..) rfl) (.nil _))
  exact ((hr.append hw).append hrenamed).append hu

def thirdReserved : World Unit :=
  { otherUncommitted with state := ⟨3, 2, some CHECKPOINT_OLDER⟩ }.put 3 .Reserved

-- The coordinator answers from memory that the first revision is on disk.
theorem already_current_not_on_disk : ∃ events before after, Starts emptyRoom ∧
    Run (SaveStep answering) emptyRoom events before ∧
    SaveStep answering before (.FastPath 3) after ∧
    after.saves 3 = some (.Crossed (SAVE_AGAIN 3) (.AlreadyCurrent CHECKPOINT_OLDER 3)) ∧
    after.disk "a.ipynb" = some [2] ∧
    ¬ OnDisk after.disk "a.ipynb" (SAVE_AGAIN 3).claim.target.fileFingerprint := by
  have hr : Run (SaveStep answering) otherUncommitted [.Reserve] thirdReserved :=
    .cons (.reserved rfl rfl) (.nil _)
  have hv : Run (SaveStep answering) thirdReserved _ _ :=
    run_verified 3 SAVE_OLDER.claim.target [1] rfl rfl rfl rfl rfl again_matches
  have hrun := ((run_olderSaved.append run_otherUncommitted).append hr).append hv
  refine ⟨_, _, _, emptyRoom_starts, hrun,
    step_alreadyCurrent rfl (put_saves ..) (by decide) rfl again_matches, put_saves .., rfl, ?_⟩
  intro hd
  exact other_fingerprint (some.inj hd)

end Nteract.Checkpoint
