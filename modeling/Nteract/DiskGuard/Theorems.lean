import Nteract.DiskGuard

namespace Nteract.DiskGuard

open Lib Lib.Transition Recovery SaveProtocol FileRoom Option Table

variable {φ : Type} [DecidableEq φ] {resolve : PathBuf → φ} {room after : FileRoom}
  {sequence : Nat}

def RoomStep (resolve : PathBuf → φ) (before : FileRoom) (event : RoomEvent) (after : FileRoom) :
    Prop :=
  before.next resolve event = some after

-- What may be replaced: a file that is missing or blank, or that the room knows.
def Known (room : FileRoom) : Prop :=
  ∀ bytes, room.disk = some bytes → hasContent bytes = true → bytes ∈ room.seen

def Ordinary (resolve : PathBuf → φ) (room : FileRoom) (request : SaveRequest) : Prop :=
  request.intent = .Ordinary ∧ room.namesBound resolve request = true

-- An ordinary save of the bound file can read it, spells its path alike and finds a baseline unless
-- the file is missing or blank.
def Careful (resolve : PathBuf → φ) (room : FileRoom) : RoomEvent → Prop
  | .BeginSave _ request read => Ordinary resolve room request →
      (∀ error, read ≠ .Failed error) ∧
      room.notebookPath request = .ok room.path ∧
      ∀ bytes, room.disk = some bytes → hasContent bytes = true →
        room.persistence.lastKnownDiskHash ≠ none ∧
        ∀ other ∈ room.seen, sourceFingerprint other = sourceFingerprint bytes → other = bytes
  | _ => True

structure Guards (resolve : PathBuf → φ) (room : FileRoom) : Prop where
  baseline : ∀ hash, room.persistence.lastKnownDiskHash = some hash →
    ∃ bytes ∈ room.seen, sourceFingerprint bytes = hash
  saves : ∀ sequence stage, room.saves.find sequence = some stage →
    Ordinary resolve room stage.request → Known room
  written : ∀ sequence request content, room.saves.find sequence = some (.Written request content) →
    room.namesBound resolve request = true → content ∈ room.seen

theorem guards_opened (path : PathBuf) (disk : Option Bytes) : Guards resolve (opened path disk) :=
  ⟨nofun, nofun, nofun⟩

theorem Guards.remember (hg : Guards resolve room) (hp : after.path = room.path)
    (hd : after.disk = room.disk) (hsaves : ∀ sequence stage,
      after.saves.find sequence = some stage → room.saves.find sequence = some stage)
    (hseen : ∀ bytes ∈ room.seen, bytes ∈ after.seen)
    (hb : after.persistence.lastKnownDiskHash = room.persistence.lastKnownDiskHash ∨
      ∃ bytes ∈ after.seen, after.persistence.lastKnownDiskHash = some (sourceFingerprint bytes)) :
    Guards resolve after := by
  have hn : ∀ request, after.namesBound resolve request = room.namesBound resolve request := by
    intro request
    unfold namesBound notebookPath
    rw [hp]
  refine ⟨fun hash hk => ?_, fun sequence stage hs ho => ?_,
    fun sequence request content hs hbound => ?_⟩
  · rcases hb with hsame | ⟨bytes, hm, hnoted⟩
    · obtain ⟨bytes, hm, hh⟩ := hg.baseline hash (hsame ▸ hk)
      exact ⟨bytes, hseen bytes hm, hh⟩
    · exact ⟨bytes, hm, some.inj (hnoted.symm.trans hk)⟩
  · have hk : Known room := by
      refine hg.saves sequence stage (hsaves sequence stage hs) ⟨ho.1, ?_⟩
      rw [← hn]
      exact ho.2
    intro bytes hbytes hc
    exact hseen bytes (hk bytes (hd ▸ hbytes) hc)
  · refine hseen content (hg.written sequence request content (hsaves sequence _ hs) ?_)
    rw [← hn]
    exact hbound

theorem notePrimarySaveBaseline_hash (persistence : RoomPersistence) (sequence : Nat)
    (bytes : Bytes) :
    (persistence.notePrimarySaveBaseline sequence bytes).lastKnownDiskHash =
        persistence.lastKnownDiskHash ∨
      (persistence.notePrimarySaveBaseline sequence bytes).lastKnownDiskHash =
        some (sourceFingerprint bytes) := by
  unfold RoomPersistence.notePrimarySaveBaseline
  split
  · exact .inl rfl
  · exact .inr rfl

theorem find_drop (hf : (room.drop sequence).saves.find other = some stage) :
    room.saves.find other = some stage := by
  unfold FileRoom.drop at hf
  rw [find_remove] at hf
  split at hf
  · cases hf
  · exact hf

section Saves

variable {read : FileRead}

theorem checkSave_undiverged (hpath : room.notebookPath request = .ok room.path)
    (hi : request.intent = .Ordinary)
    (hok : room.checkSave sequence request read = .ok existingRaw)
    (hr : read.existingRaw = some bytes) :
    room.persistence.diskContentDiverged bytes = false := by
  have hp : room.isPrimaryPath request room.path = true := by simp [isPrimaryPath]
  by_contra hdiverged
  rw [Bool.not_eq_false] at hdiverged
  unfold checkSave at hok
  rw [hpath] at hok
  cases hd : room.degraded with
  | none => simp [bind, Except.bind, hp, hi, hd, hr, hdiverged, throw,
      throwThe, MonadExceptOf.throw] at hok
  | some => simp [bind, Except.bind, hp, hi, hd, throw, throwThe, MonadExceptOf.throw] at hok

theorem primary_namesBound {path : PathBuf} (hp : room.notebookPath request = .ok path)
    (hprimary : room.isPrimaryPath request path = true) :
    room.namesBound resolve request = true := by
  have hs : path = room.path := by
    rcases Bool.or_eq_true_iff.mp hprimary with hn | he
    · unfold notebookPath at hp
      rw [isNone_iff_eq_none.mp hn] at hp
      exact (Except.ok.inj hp).symm
    · exact of_decide_eq_true he
  unfold namesBound
  rw [hp]
  exact decide_eq_true (congrArg resolve hs)

variable (hg : Guards resolve room)

include hg

theorem checkSave_known (hr : read.reads room.disk = true)
    (hc : Careful resolve room (.BeginSave sequence request read))
    (hok : room.checkSave sequence request read = .ok existingRaw)
    (ho : Ordinary resolve room request) : Known room := by
  intro bytes hd hcontent
  obtain ⟨hread, hp, hcareful⟩ := hc ho
  obtain ⟨hb, hcollision⟩ := hcareful bytes hd hcontent
  have hf : read.existingRaw = some bytes := by
    cases read with
    | Found found =>
      have hs : room.disk = some found := of_decide_eq_true hr
      exact hs.symm.trans hd
    | NotFound =>
      have hmissing : room.disk = none := of_decide_eq_true hr
      rw [hmissing] at hd
      cases hd
    | Failed error => exact absurd rfl (hread error)
  have hs := checkSave_undiverged hp ho.1 hok hf
  obtain ⟨hash, hh⟩ := ne_none_iff_exists'.mp hb
  unfold RoomPersistence.diskContentDiverged at hs
  rw [hh] at hs
  obtain ⟨other, hm, hother⟩ := hg.baseline hash hh
  have he : sourceFingerprint bytes = hash := by simpa using hs
  rw [← hcollision other hm (hother.trans he.symm)]
  exact hm

theorem Guards.put (hs : ∀ request content, stage ≠ .Written request content)
    (hk : Ordinary resolve room stage.request → Known room) :
    Guards resolve (room.put sequence stage) := by
  refine ⟨hg.baseline, fun other found hf ho => ?_, fun other request content hf hb => ?_⟩
  · unfold FileRoom.put at hf
    rw [find_set] at hf
    split at hf
    · obtain rfl := some.inj hf
      exact hk ho
    · exact hg.saves other found hf ho
  · unfold FileRoom.put at hf
    rw [find_set] at hf
    split at hf
    · exact absurd (some.inj hf) (hs request content)
    · exact hg.written other request content hf hb

theorem Guards.drop (sequence : Nat) : Guards resolve (room.drop sequence) :=
  hg.remember rfl rfl (fun _ _ => find_drop) (fun _ hm => hm) (.inl rfl)

theorem beginSave_guards (hr : read.reads room.disk = true)
    (hc : Careful resolve room (.BeginSave sequence request read)) :
    Guards resolve (room.beginSave sequence request read) := by
  unfold beginSave
  split
  · rename_i existingRaw hok
    exact hg.put nofun fun ho => checkSave_known hg hr hc hok ho
  · exact hg

theorem guardSave_guards
    (hs : room.guardSave resolve sequence = some after) : Guards resolve after := by
  unfold guardSave at hs
  split at hs
  · rename_i request existingRaw hstage
    split at hs
    · obtain rfl := some.inj hs
      exact hg.put nofun fun ho => hg.saves sequence _ hstage ho
    · obtain rfl := some.inj hs
      exact hg.drop sequence
  · cases hs

theorem replaceFile_guards (hs : room.replaceFile resolve sequence content = some after) :
    Guards resolve after := by
  unfold replaceFile at hs
  split at hs
  · rename_i request hstage
    dsimp only at hs
    split at hs
    · obtain rfl := some.inj hs
      refine ⟨fun hash hk => ?_, fun _ _ _ _ bytes hbytes _ => ?_,
        fun other owner written hf hb => ?_⟩
      · obtain ⟨bytes, hm, hh⟩ := hg.baseline hash hk
        exact ⟨bytes, .tail _ hm, hh⟩
      · obtain rfl := some.inj hbytes
        exact (.head _)
      · simp only [FileRoom.put, find_set] at hf
        split at hf
        · obtain ⟨-, rfl⟩ := SaveStage.Written.inj (some.inj hf)
          exact (.head _)
        · exact .tail _ (hg.written other owner written hf hb)
    · rename_i hother
      obtain rfl := some.inj hs
      refine ⟨hg.baseline, fun other found hf ho => ?_, fun other owner written hf hb => ?_⟩
      · simp only [FileRoom.put, find_set] at hf
        split at hf
        · obtain rfl := some.inj hf
          exact hg.saves sequence _ hstage ho
        · exact hg.saves other found hf ho
      · simp only [FileRoom.put, find_set] at hf
        split at hf
        · obtain ⟨rfl, -⟩ := SaveStage.Written.inj (some.inj hf)
          exact absurd hb hother
        · exact hg.written other owner written hf hb
  · cases hs

theorem finishSave_guards (hs : room.finishSave sequence recovered = some after) :
    Guards resolve after := by
  unfold finishSave at hs
  split at hs
  · rename_i request content hstage
    obtain rfl := some.inj hs
    refine hg.remember rfl rfl (fun _ _ => find_drop) (fun _ hm => hm) ?_
    generalize hr : (if request.intent = .Ordinary ∧ recovered = true then
      room.persistence.clearLoadFailed else room.persistence) = persistence
    have hk : persistence.lastKnownDiskHash = room.persistence.lastKnownDiskHash := by
      rw [← hr]
      split <;> rfl
    split
    · rename_i path hpath
      split
      · rename_i hp
        rcases notePrimarySaveBaseline_hash persistence sequence content with hsame | hn
        · exact .inl (hsame.trans hk)
        · exact .inr ⟨content,
            hg.written sequence request content hstage (primary_namesBound hpath hp), hn⟩
      · exact .inl hk
    · exact .inl hk
  · cases hs

theorem watchRead_guards (hs : room.watchRead manifest pending = some after) :
    Guards resolve after := by
  unfold watchRead at hs
  split at hs
  · split at hs
    · obtain rfl := some.inj hs
      exact hg
    · obtain rfl := some.inj hs
      exact hg.remember rfl rfl (fun _ _ hf => hf) (fun _ hm => hm) (.inl rfl)
  · cases hs

theorem watchIngest_guards
    (hs : room.watchIngest sequence reread journaled reconciled = some after) :
    Guards resolve after := by
  unfold watchIngest at hs
  split at hs
  · cases hs
  · rename_i contents _
    split at hs
    · obtain rfl := some.inj hs
      refine hg.remember rfl rfl (fun _ _ hf => hf) (fun _ hm => .tail _ hm) ?_
      rcases notePrimarySaveBaseline_hash room.persistence.clearLoadFailed sequence contents with
        hsame | hn
      · exact .inl hsame
      · exact .inr ⟨contents, (.head _), hn⟩
    · obtain rfl := some.inj hs
      exact hg.remember rfl rfl (fun _ _ hf => hf) (fun _ hm => hm) (.inl rfl)

end Saves

theorem next_guards (hc : Careful resolve room event) (hs : room.next resolve event = some after)
    (hg : Guards resolve room) : Guards resolve after := by
  cases event with
  | External =>
    simp only [next, ite_none_right_eq_some, some.injEq] at hs
    obtain ⟨hi, rfl⟩ := hs
    have hn : ∀ sequence, room.saves.find sequence = none := fun sequence => by
      unfold Table.find
      rw [hi]
      rfl
    refine ⟨hg.baseline, fun sequence stage hstage => ?_, fun sequence request bytes hstage => ?_⟩
    · exact absurd ((hn sequence).symm.trans hstage) nofun
    · exact absurd ((hn sequence).symm.trans hstage) nofun
  | LoadRead =>
    obtain ⟨bytes, -, rfl⟩ := map_eq_some_iff.mp hs
    exact hg.remember rfl rfl (fun _ _ hf => hf) (fun _ hm => hm) (.inl rfl)
  | LoadNote =>
    obtain ⟨bytes, -, rfl⟩ := map_eq_some_iff.mp hs
    exact hg.remember rfl rfl (fun _ _ hf => hf) (fun _ hm => .tail _ hm)
      (.inr ⟨bytes, (.head _), rfl⟩)
  | BeginSave =>
    simp only [next, ite_none_right_eq_some, some.injEq] at hs
    obtain ⟨⟨-, hr⟩, rfl⟩ := hs
    exact beginSave_guards hg hr hc
  | GuardSave => exact guardSave_guards hg hs
  | ReplaceFile => exact replaceFile_guards hg hs
  | FinishSave => exact finishSave_guards hg hs
  | LeaveSave sequence =>
    obtain rfl := some.inj hs
    exact hg.drop sequence
  | WatchRead => exact watchRead_guards hg hs
  | WatchIngest =>
    simp only [next, ite_none_right_eq_some] at hs
    exact watchIngest_guards hg hs.2
  | LoadComplete | LoadFail | Degrade degraded | Evict | WatchLeave =>
    obtain rfl := some.inj hs
    exact hg.remember rfl rfl (fun _ _ hf => hf) (fun _ hm => hm) (.inl rfl)

-- An ordinary save replaces only a file that the room knows, and none after a failed load.
theorem no_unseen_overwrite {path : PathBuf} {disk : Option Bytes} {events : List RoomEvent}
    (hr : Run (Guarded (RoomStep resolve) (Careful resolve)) (opened path disk) events room) :
    (∀ sequence content, RoomStep resolve room (.ReplaceFile sequence content) after →
      ∀ stage, room.saves.find sequence = some stage → Ordinary resolve room stage.request →
        room.disk = none ∨ ∃ bytes, room.disk = some bytes ∧
          (hasContent bytes = false ∨ bytes ∈ room.seen)) ∧
    ∀ sequence request bytes,
      room.saves.find sequence = some (.Checked request (some bytes)) →
      hasContent bytes = true → room.persistence.loadFailed = true →
      request.intent = .Ordinary → room.isInPlaceSave resolve request = true →
      RoomStep resolve room (.GuardSave sequence) after →
        after.saves.find sequence = none ∧ after.disk = room.disk := by
  have hguards : Guards resolve room := by
    refine hr.invariant (Guards resolve) ?_ (guards_opened path disk)
    rintro _ _ after hg ⟨hcareful, hstep⟩
    exact next_guards hcareful hstep hg
  constructor
  · intro sequence content _ stage hs ho
    have hk := hguards.saves sequence stage hs ho
    cases hdisk : room.disk with
    | none => exact .inl rfl
    | some bytes =>
      refine .inr ⟨bytes, rfl, ?_⟩
      cases hc : hasContent bytes with
      | false => exact .inl rfl
      | true => exact .inr (hk bytes hdisk hc)
  · intro sequence request bytes hs hc hf hi hp hstep
    have hd : room.guardSave resolve sequence = some (room.drop sequence) := by
      simp [FileRoom.guardSave, hs, FileRoom.guardFailedLoad, hc, hf, hi, hp]
    have hafter : room.drop sequence = after := some.inj (hd.symm.trans hstep)
    rw [← hafter]
    refine ⟨?_, rfl⟩
    unfold FileRoom.drop
    rw [find_remove, if_pos rfl]

def NOTEBOOK : PathBuf := "/notebook.ipynb"

-- A second path leads to the same file.
def sampleFile (path : PathBuf) : Nat := if path = NOTEBOOK ∨ path = "/link.ipynb" then 0 else 1

def inPlace : SaveRequest := ⟨.Ordinary, none⟩

def DRAFT : Bytes := [0x41]

def EDITED : Bytes := [0x42]

def loadedRoom : FileRoom :=
  { opened NOTEBOOK (some DRAFT) with
    persistence := ⟨some (sourceFingerprint DRAFT), 0, false⟩
    staged := some DRAFT
    seen := [DRAFT] }

theorem loadedRoom_run : Run (Guarded (RoomStep sampleFile) (Careful sampleFile))
    (opened NOTEBOOK (some DRAFT)) [.LoadRead, .LoadNote, .LoadComplete] loadedRoom :=
  .cons ⟨trivial, rfl⟩ (.cons ⟨trivial, rfl⟩ (.cons ⟨trivial, rfl⟩ (.nil _)))

theorem loadedRoom_begins : RoomStep sampleFile loadedRoom (.BeginSave 1 inPlace (.Found DRAFT))
    (loadedRoom.put 1 (.Checked inPlace (some DRAFT))) := by
  have hs : loadedRoom.persistence.diskContentDiverged DRAFT = false := by
    simp [loadedRoom, RoomPersistence.diskContentDiverged]
  have hc : loadedRoom.checkSave 1 inPlace (.Found DRAFT) = .ok (some DRAFT) := by
    unfold checkSave
    simp only [FileRead.existingRaw, hs]
    rfl
  have hb : loadedRoom.beginSave 1 inPlace (.Found DRAFT) =
      loadedRoom.put 1 (.Checked inPlace (some DRAFT)) := by
    unfold beginSave
    rw [hc]
  exact congrArg some hb

theorem loaded_file_replaced :
    let room := loadedRoom.put 1 (.Guarded inPlace)
    (∃ after, RoomStep sampleFile room (.ReplaceFile 1 EDITED) after ∧
      after.disk = some EDITED) ∧
    (room.disk = none ∨ ∃ bytes, room.disk = some bytes ∧
      (hasContent bytes = false ∨ bytes ∈ room.seen)) := by
  have hc : Careful sampleFile loadedRoom (.BeginSave 1 inPlace (.Found DRAFT)) := by
    intro _
    refine ⟨nofun, rfl, fun bytes hb _ => ⟨nofun, fun other hm _ => ?_⟩⟩
    rw [List.mem_singleton.mp hm]
    exact some.inj hb
  have hs : Run (Guarded (RoomStep sampleFile) (Careful sampleFile)) loadedRoom
      [.BeginSave 1 inPlace (.Found DRAFT), .GuardSave 1] (loadedRoom.put 1 (.Guarded inPlace)) :=
    .cons ⟨hc, loadedRoom_begins⟩ (.cons ⟨trivial, rfl⟩ (.nil _))
  refine ⟨⟨_, rfl, rfl⟩, ?_⟩
  exact (no_unseen_overwrite (loadedRoom_run.append hs)).1 1 EDITED rfl (.Guarded inPlace) rfl
    ⟨rfl, rfl⟩

-- An ordinary save replaces the bytes of another writer.
def Overwrites (start : FileRoom) (events : List RoomEvent) (bytes : Bytes) : Prop :=
  ∃ room after, Run (RoomStep sampleFile) start events room ∧
    room.disk = some bytes ∧ hasContent bytes = true ∧ bytes ∉ room.seen ∧
    RoomStep sampleFile room (.ReplaceFile 1 [0x43]) after ∧ after.disk = some [0x43] ∧
    ∃ stage, room.saves.find 1 = some stage ∧ Ordinary sampleFile room stage.request

theorem overwrites_of_follow
    (hf : follow (fun room event => room.next sampleFile event) start events = some room)
    (hd : room.disk = some bytes) (hc : hasContent bytes = true)
    (hseen : bytes ∉ room.seen) (hs : room.next sampleFile (.ReplaceFile 1 [0x43]) = some after)
    (ha : after.disk = some [0x43]) (hstage : room.saves.find 1 = some stage)
    (ho : Ordinary sampleFile room stage.request) : Overwrites start events bytes :=
  ⟨room, after, Run.of_follow hf, hd, hc, hseen, hs, ha, stage, hstage, ho⟩

-- The file cannot be read; the room has no baseline; the path is spelled in another way.
theorem unseen_overwrites :
    Overwrites (opened NOTEBOOK (some DRAFT))
      [.LoadRead, .LoadNote, .LoadComplete, .External (some EDITED),
        .BeginSave 1 inPlace (.Failed "permission denied"), .GuardSave 1] EDITED ∧
    Overwrites (opened NOTEBOOK none)
      [.External (some EDITED), .BeginSave 1 inPlace (.Found EDITED), .GuardSave 1] EDITED ∧
    Overwrites (opened NOTEBOOK (some DRAFT))
      [.LoadRead, .LoadNote, .LoadComplete, .External (some EDITED),
        .BeginSave 1 ⟨.Ordinary, some "/link.ipynb"⟩ (.Found EDITED), .GuardSave 1] EDITED := by
  refine ⟨?_, ?_, ?_⟩
  · exact overwrites_of_follow rfl rfl rfl (by decide) rfl rfl rfl ⟨rfl, rfl⟩
  · exact overwrites_of_follow rfl rfl rfl (by decide) rfl rfl rfl ⟨rfl, rfl⟩
  · exact overwrites_of_follow rfl rfl rfl (by decide) rfl rfl rfl ⟨rfl, rfl⟩

end Nteract.DiskGuard
