import Nteract.PeerSync

namespace Nteract.PeerSync

open Durability Identity Lib.Bytes Recovery Finset

variable {automerge : Automerge} {State Message : Type} {serde : ManifestSerde}
  {protocol : SyncProtocol automerge State Message} {actors : ChangeActors}
  {diffMetadataTouched : List ChangeHash → List ChangeHash → Bool}

def durable (automerge : Automerge) (durability : RoomDurability) : Document :=
  contents automerge durability.state.durableSnapshot

section Receive

variable (protocol) (document : Document) (state : State) (message : Message)

theorem receiveRecovering_bounds :
    document ⊆ (receiveRecovering protocol document state message).document ∧
      (receiveRecovering protocol document state message).document ⊆
        document ∪ protocol.changes message := by
  have hg := protocol.receive_grows document state message
  have ha := protocol.receive_adds document state message
  unfold receiveRecovering
  simp only
  split
  · exact ⟨hg, ha⟩
  · split
    · rw [automerge.load_save]
      refine ⟨hg.trans (protocol.receive_grows _ _ _), ?_⟩
      refine (protocol.receive_adds _ _ _).trans (union_subset ha ?_)
      exact subset_union_right
    · exact ⟨hg, ha⟩

end Receive

theorem commitPeerChanges_ok
    (hc : commitPeerChanges automerge serde io changes room = .ok outcome after) :
    durable automerge room ⊆ durable automerge after ∧
      changes.toFinset ⊆ durable automerge after := by
  have hcall : call automerge serde { JournalIo.works 0 with append := io }
      (.CommitPeerChanges changes) room = .ok outcome after := hc
  cases call_ok hcall with
  | already hs =>
    refine ⟨Subset.refl _, ?_⟩
    cases hs with
    | noPeerChanges => exact empty_subset _
    | @peerChanges _ _ merged _ _ _ _ hd hb hsame =>
      have hm : merged = durable automerge room := by
        rcases hsame with rfl | hsame
        · have happly := (applyRetainedChangeBatch_eq_ok hb).2
          rw [durable, contents_of_loadSnapshot hd, Automerge.applyChanges_eq_ok happly]
          simp
        · rw [durable, ← hsame, contents_save]
      intro change hc
      rw [← hm]
      exact (batch_subset hb).2 change (List.mem_toFinset.mp hc)
  | committed _ hr =>
    cases hr with
    | @peerChanges _ _ merged _ _ _ hd hb _ =>
      obtain ⟨hsub, hall⟩ := batch_subset hb
      have ha : ∀ journal next, next.durableSnapshot = automerge.save merged →
          durable automerge (room.publishing next journal) = merged := by
        intro journal next hn
        rw [durable, RoomDurability.publishing, hn, contents_save]
      rw [ha _ _ rfl]
      refine ⟨?_, fun change hc => hall change (List.mem_toFinset.mp hc)⟩
      rw [durable, contents_of_loadSnapshot hd]
      exact hsub

theorem commitPeerChanges_error
    (hc : commitPeerChanges automerge serde io changes room = .error error after) :
    durable automerge after = durable automerge room := by
  have hcall : call automerge serde { JournalIo.works 0 with append := io }
      (.CommitPeerChanges changes) room = .error error after := hc
  cases call_error hcall with
  | rejected => rfl
  | journal _ _ hf =>
    obtain ⟨_, _, rfl⟩ := hf
    rfl

structure Settled (automerge : Automerge) (live : Document) (durability : RoomDurability) :
    Prop where
  complete : automerge.getChanges live = live
  kept : live ⊆ durable automerge durability

-- The errors after which document and sync state are as they were.
def FrameError.Undone : FrameError → Prop
  | .ReceiveFailed _ | .ReplyFailed _ => False
  | _ => True

-- What was let out shows durable changes only, and a reply carries no others.
def Emission.Durable (protocol : SyncProtocol automerge State Message)
    (emission : Emission Message) : Prop :=
  emission.live ⊆ contents automerge emission.durableSnapshot ∧
    ∀ message, emission.notice = .Reply message →
      protocol.changes message ⊆ contents automerge emission.durableSnapshot

structure Handled (protocol : SyncProtocol automerge State Message) (actors : ChangeActors)
    (identity : RoomConnectionIdentity) (live : Document) (peerState : State)
    (result : FrameResult State Message) : Prop where
  settled : Settled automerge result.live result.durability
  admitted : ∀ change ∈ result.live, change ∉ live → Admitted actors identity change
  undone : ∀ error, result.outcome = .error error → error.Undone →
    result.live = live ∧ result.peerState = peerState
  emitted : ∀ emission ∈ result.emitted, emission.Durable protocol

theorem handled_refused (hs : Settled automerge live durability) (error : FrameError) :
    Handled protocol actors identity live peerState
      (⟨.error error, live, peerState, durability, [], none⟩ : FrameResult State Message) where
  settled := hs
  admitted change hc hn := absurd hc hn
  undone _ _ _ := ⟨rfl, rfl⟩
  emitted emission he := by cases he

theorem durable_reply (hk : received ⊆ durable automerge durability)
    (hg : (protocol.generate received left).1 = some reply) :
    (⟨.Reply reply, received, durability.state.durableSnapshot⟩ : Emission Message).Durable
      protocol := by
  refine ⟨hk, fun message hm => ?_⟩
  cases hm
  exact (protocol.generate_changes _ _ _ hg).trans hk

theorem handled_reply (hs : Settled automerge received durability)
    (ha : ∀ change ∈ received, change ∉ live → Admitted actors identity change) :
    Handled protocol actors identity live peerState
      (replyToFrame protocol io effects changed received left durability) := by
  have ht : ∀ emission ∈ (if changed then
      [(⟨.Changed, received, durability.state.durableSnapshot⟩ : Emission Message)] else []),
      emission.Durable protocol := by
    intro emission he
    split at he
    · rw [List.mem_singleton.mp he]
      exact ⟨hs.kept, nofun⟩
    · cases he
  unfold replyToFrame
  cases io.replyFault with
  | some =>
    refine ⟨hs, ha, fun error he hu => ?_, ht⟩
    cases he
    exact hu.elim
  | none =>
    cases hg : protocol.generate received left with
    | mk reply =>
      cases reply with
      | none => exact ⟨hs, ha, nofun, ht⟩
      | some =>
        refine ⟨hs, ha, nofun, fun emission he => ?_⟩
        rcases List.mem_append.mp he with he | he
        · exact ht emission he
        · rw [List.mem_singleton.mp he]
          exact durable_reply hs.kept (by rw [hg])

theorem restored_true (live : Document) : restored automerge true live = some live := by
  unfold restored
  rw [if_pos rfl, automerge.load_save]

theorem eq_of_getHeads_eq (hf : automerge.getChanges first = first)
    (hs : automerge.getChanges second = second)
    (he : automerge.getHeads first = automerge.getHeads second) : first = second := by
  rw [← hf, ← hs]
  exact Automerge.getChanges_eq_of_getHeads_eq he

theorem mem_getChangesSince (hb : automerge.getChanges before = before)
    (ha : automerge.getChanges after = after) :
    change ∈ getChangesSince automerge before after ↔ change ∈ after ∧ change ∉ before := by
  unfold getChangesSince
  rw [mem_sortedList, mem_sdiff, hb, ha]

-- All changes of the frame are applied, and each of them is the sender's to write.
theorem handled_commit {message : Message} (hs : Settled automerge live durability)
    (hcomplete : automerge.getChanges received.document = received.document)
    (hclient : protocol.changes message = ∅ → received.document = live)
    (ha : ∀ change ∈ received.document, change ∉ live → Admitted actors identity change) :
    Handled protocol actors identity live peerState
      (commitFrame serde protocol diffMetadataTouched io (decide (protocol.changes message ≠ ∅))
        live peerState (getChangesSince automerge live received.document) received
        durability) := by
  unfold commitFrame
  by_cases hchanged : automerge.getHeads live ≠ automerge.getHeads received.document ∧
      decide (protocol.changes message ≠ ∅) = true
  · rw [if_pos hchanged]
    cases hc : commitPeerChanges automerge serde io.append
        (getChangesSince automerge live received.document) durability with
    | error error failed =>
      have hk : durable automerge failed = durable automerge durability :=
        commitPeerChanges_error hc
      have hl : (restored automerge (decide (protocol.changes message ≠ ∅)) live).getD
          received.document = live := by
        rw [hchanged.2, restored_true]
        rfl
      simp only [rejectFrame, hl]
      refine ⟨⟨hs.complete, ?_⟩, fun change hc hn => absurd hc hn, fun _ _ _ => ⟨rfl, rfl⟩,
        fun emission he => by cases he⟩
      exact hs.kept.trans hk.ge
    | ok outcome committed =>
      obtain ⟨hm, hnew⟩ := commitPeerChanges_ok hc
      refine handled_reply ⟨hcomplete, fun change hr => ?_⟩ ha
      by_cases ho : change ∈ live
      · exact hm (hs.kept ho)
      · exact hnew (List.mem_toFinset.mpr
          ((mem_getChangesSince hs.complete hcomplete).mpr ⟨hr, ho⟩))
  · rw [if_neg hchanged]
    -- nothing to commit: the document is the one before the frame
    have hsame : received.document = live := by
      by_cases hempty : protocol.changes message = ∅
      · exact hclient hempty
      · have hh : automerge.getHeads live = automerge.getHeads received.document := by
          by_contra hne
          exact hchanged ⟨hne, by simpa using hempty⟩
        exact (eq_of_getHeads_eq hs.complete hcomplete hh).symm
    refine handled_reply ?_ ha
    rw [hsame]
    exact hs

-- What the preview received is complete, and admitted are the changes it adds.
theorem admitFrame_ok {message : Message} (hc : automerge.getChanges live = live)
    (ha : admitFrame protocol actors identity live peerState message = .ok admitted) :
    let received := receiveRecovering protocol live peerState message
    (protocol.changes message = ∅ → received.document = live) ∧
      (∀ error, received.result = .error error → protocol.changes message = ∅) ∧
      automerge.getChanges received.document = received.document ∧
      admitted = getChangesSince automerge live received.document ∧
      ∀ change ∈ received.document, change ∉ live → Admitted actors identity change := by
  intro received
  have hbounds := receiveRecovering_bounds protocol live peerState message
  by_cases hempty : protocol.changes message = ∅
  · have hsame : received.document = live := by
      rw [hempty, union_empty] at hbounds
      exact Subset.antisymm hbounds.2 hbounds.1
    unfold admitFrame at ha
    rw [if_neg (not_not_intro hempty)] at ha
    cases ha
    rw [hsame]
    refine ⟨fun _ => rfl, fun _ _ => hempty, hc, ?_, fun change hc hn => absurd hc hn⟩
    refine (List.eq_nil_iff_forall_not_mem.mpr fun change hm => ?_).symm
    have hnew := (mem_getChangesSince hc hc).mp hm
    exact hnew.2 hnew.1
  · unfold admitFrame admitPreview at ha
    rw [if_pos hempty] at ha
    cases hr : received.result with
    | error =>
      simp only [received] at hr
      simp only [hr] at ha
      cases ha
    | ok =>
      simp only [received] at hr
      simp only [hr] at ha
      by_cases hdeps : automerge.getMissingDeps received.document [] = []
      · rw [if_neg (not_not_intro hdeps)] at ha
        have hcomplete := (Automerge.getMissingDeps_eq_nil protocol.acyclic).mp hdeps
        refine ⟨fun h => absurd h hempty, nofun, hcomplete, ?_⟩
        cases hadmission : admitNotebookChanges actors identity
            (getChangesSince automerge live received.document) with
        | error error =>
          rw [hadmission] at ha
          cases ha
        | ok passed =>
          rw [hadmission] at ha
          cases ha
          obtain ⟨hadmitted, hall⟩ := admitNotebookChanges_ok hadmission
          exact ⟨hadmitted, fun change hm hn =>
            hall change ((mem_getChangesSince hc hcomplete).mpr ⟨hm, hn⟩)⟩
      · rw [if_pos hdeps] at ha
        cases ha

-- The live document receives what the preview did, without client changes later.
theorem handled_receive {message : Message} (hs : Settled automerge live durability)
    (ha : admitFrame protocol actors identity live peerState message = .ok admitted) :
    Handled protocol actors identity live peerState
      (receiveFrame serde protocol diffMetadataTouched io live peerState message admitted
        durability) := by
  obtain ⟨hsame, herror, hcomplete, rfl, hall⟩ := admitFrame_ok hs.complete ha
  unfold receiveFrame
  simp only
  generalize receiveRecovering protocol live peerState message = received at *
  cases hr : received.result with
  | error error =>
    have hlive := hsame (herror error hr)
    refine ⟨hlive.symm ▸ hs, hall, fun found he hundone => ?_, fun emission he => by cases he⟩
    cases he
    exact hundone.elim
  | ok =>
    simp only [reconcileApplied, ne_eq, not_true_eq_false, if_false]
    exact handled_commit hs hcomplete hsame hall

theorem handled_frame (payload : Bytes) (hs : Settled automerge live durability) :
    Handled protocol actors identity live peerState
      (applyNotebookDocFrame serde protocol actors diffMetadataTouched identity io live peerState
        durability payload) := by
  unfold applyNotebookDocFrame
  cases protocol.decode payload with
  | error => exact handled_refused hs _
  | ok decoded =>
    simp only
    cases ha : admitFrame protocol actors identity live peerState
        (stripChanges protocol identity decoded) with
    | error error => exact handled_refused hs _
    | ok admitted => exact handled_receive hs ha

section Rooms

variable {room : PeerRoom State}

theorem settled_handle (event : PeerEvent State)
    (hs : Settled automerge room.live room.durability) :
    Settled automerge (room.handle serde protocol actors diffMetadataTouched event).live
      (room.handle serde protocol actors diffMetadataTouched event).durability := by
  cases event with
  | Frame connection payload io =>
    exact (handled_frame payload hs).settled
  | Broadcast => exact hs

theorem settled_run (events : List (PeerEvent State))
    (hs : Settled automerge room.live room.durability) :
    Settled automerge (room.run serde protocol actors diffMetadataTouched events).live
      (room.run serde protocol actors diffMetadataTouched events).durability := by
  induction events generalizing room with
  | nil => exact hs
  | cons event _ ih => exact ih (settled_handle event hs)

theorem emits_durable (event : PeerEvent State) (hs : Settled automerge room.live room.durability) :
    ∀ emission ∈ room.emits serde protocol actors diffMetadataTouched event,
      emission.Durable protocol := by
  cases event with
  | Frame connection payload io =>
    exact (handled_frame payload hs).emitted
  | Broadcast =>
    intro emission he
    simp only [PeerRoom.emits] at he
    split at he
    · rename_i message hg
      rw [List.mem_singleton.mp he]
      exact durable_reply hs.kept hg
    · cases he

-- The next frame leaves a durable document, adds only changes its sender may bring and leaves no
-- trace when refused. Only durable changes are shown.
theorem durable_before_visible (serde : ManifestSerde)
    (protocol : SyncProtocol automerge State Message) (actors : ChangeActors)
    (diffMetadataTouched : List ChangeHash → List ChangeHash → Bool)
    (room : PeerRoom State) (hq : automerge.getChanges room.live = room.live)
    (hd : room.live ⊆ contents automerge room.durability.state.durableSnapshot)
    (events : List (PeerEvent State)) (connection : Nat) (payload : Bytes) (io : FrameIo State)
    (event : PeerEvent State) :
    let before := room.run serde protocol actors diffMetadataTouched events
    let identity := before.identities connection
    let result := before.applyFrame serde protocol actors diffMetadataTouched connection payload io
    result.live ⊆ contents automerge result.durability.state.durableSnapshot ∧
      (∀ change ∈ result.live, change ∉ before.live →
        identity.allowsNotebookWrite = true ∧
          (Belongs identity (actors.actorLabel change) ∨
            LegacyLabel identity (actors.actorLabel change) ∨
            (actors.actorLabel change = SCHEMA_SEED_ACTOR ∧
              change ∈ actors.canonicalSchemaSeedChangeHashes))) ∧
      (∀ error, result.outcome = .error error → error.Undone →
        result.live = before.live ∧ result.peerState = before.peerStates connection) ∧
      ∀ emission ∈ before.emits serde protocol actors diffMetadataTouched event,
        emission.live ⊆ contents automerge emission.durableSnapshot ∧
          ∀ message, emission.notice = .Reply message →
            protocol.changes message ⊆ contents automerge emission.durableSnapshot := by
  intro before identity result
  have hs : Settled automerge before.live before.durability := settled_run events ⟨hq, hd⟩
  have hh : Handled protocol actors identity before.live (before.peerStates connection) result :=
    handled_frame payload hs
  exact ⟨hh.settled.kept, hh.admitted, hh.undone, emits_durable event hs⟩

end Rooms

theorem toFinset_withoutChanges (_ : List ChangeHash) : ([] : List ChangeHash).toFinset = ∅ := rfl

theorem acyclic_of_no_deps :
    WellFounded fun dep change : ChangeHash => dep ∈ (referenceAutomerge fun _ => []).deps change :=
  ⟨fun change => .intro change fun dep hd => by cases hd⟩

-- Messages are the changes they carry. The state counts them.
def referenceProtocol : SyncProtocol (referenceAutomerge fun _ => []) Nat (List ChangeHash) where
  new := 0
  decode bytes := .ok (readDigests bytes.length bytes)
  changes := List.toFinset
  withoutChanges _ := []
  receive document state message := ⟨.ok (), document ∪ message.toFinset, state + 1⟩
  isRecoverableSyncError _ := false
  generate document state := (some (sortedList document), state + 1)
  changes_withoutChanges := toFinset_withoutChanges
  receive_grows _ _ _ := subset_union_left
  receive_adds _ _ _ := Subset.refl _
  receive_ok _ _ _ _ := subset_union_right
  generate_changes document state message hg := by
    cases hg
    exact fun change hc => mem_sortedList.mp (List.mem_toFinset.mp hc)
  acyclic := acyclic_of_no_deps

-- Change 0 is the schema seed, every other change is written by the hosted user.
def seedActors : ChangeActors where
  actorLabel change := if change = 0 then SCHEMA_SEED_ACTOR else "user:anaconda:1/desktop:a"
  canonicalSchemaSeedChangeHashes := [0]

def hostedEditor : RoomConnectionIdentity :=
  ⟨⟨"user:anaconda:1", by decide +kernel⟩, .Editor, .Reject⟩

def seedManifest : RecoveryManifest :=
  { RecoveryManifest.new 1 1 none SCHEMA_VERSION 0 0 with
    durableHeads := [0], peerChangeCount := 1 }

-- A journal that can write one manifest: the one of the seed.
def seedSerde : ManifestSerde := knownSerde [seedManifest] (by decide +kernel)

def emptyRoom : PeerRoom Nat where
  live := ∅
  durability := journaled (.new "/docs/a.recovery" none) 1 none 0 0 (referenceSave ∅)
  peerStates _ := 0
  identities _ := hostedEditor

def JOURNAL_WORKS : FrameIo Nat := ⟨.works 1, none⟩

def seeded : PeerRoom Nat :=
  emptyRoom.run seedSerde referenceProtocol seedActors (fun _ _ => false)
    [.Frame 0 (digestBytes 0) JOURNAL_WORKS]

-- The frame of a hosted editor brings the seed, whose actor is not the editor.
theorem seed_is_not_the_senders :
    let result := emptyRoom.applyFrame seedSerde referenceProtocol seedActors (fun _ _ => false) 0
      (digestBytes 0) JOURNAL_WORKS
    (0 : ChangeHash) ∈ result.live ∧ (0 : ChangeHash) ∉ emptyRoom.live ∧
      ¬ Belongs hostedEditor (seedActors.actorLabel 0) := by
  refine ⟨by decide +kernel, by decide, ?_⟩
  rintro ⟨_, hp, _⟩
  cases hp

-- The next frame's commit fails, and the room is as the seed left it.
theorem refused_frame_leaves_seed :
    let result := seeded.applyFrame seedSerde referenceProtocol seedActors (fun _ _ => false) 0
      (digestBytes 7) JOURNAL_WORKS
    seeded.live = {0} ∧ (∃ error, result.outcome = .error (.JournalCommit error)) ∧
      result.live = seeded.live ∧ result.peerState = seeded.peerStates 0 := by
  intro result
  have hempty : (referenceAutomerge fun _ => []).getChanges emptyRoom.live = emptyRoom.live := rfl
  have hd : emptyRoom.live ⊆ contents (referenceAutomerge fun _ => [])
      emptyRoom.durability.state.durableSnapshot := empty_subset _
  have ha := durable_before_visible seedSerde referenceProtocol seedActors (fun _ _ => false)
    emptyRoom hempty hd [.Frame 0 (digestBytes 0) JOURNAL_WORKS] 0 (digestBytes 7)
    JOURNAL_WORKS (.Broadcast 0 none)
  have hf : (match result.outcome with
      | .error (.JournalCommit _) => true
      | _ => false) = true := by decide +kernel
  have herror : ∃ error, result.outcome = .error (.JournalCommit error) := by
    split at hf
    · rename_i error he
      exact ⟨error, he⟩
    · cases hf
  obtain ⟨error, he⟩ := herror
  exact ⟨by decide +kernel, ⟨error, he⟩, ha.2.2.1 _ he trivial⟩

end Nteract.PeerSync
