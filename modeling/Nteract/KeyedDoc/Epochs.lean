import Nteract.KeyedDoc.Theorems

namespace Nteract.KeyedDoc

open Identity Lib Lib.Bytes Lib.JsonText Lib.Transition PeerSync Recovery RuntimeDoc Option

variable {automerge : Automerge} {State Message Room : Type}
  {protocol : KeyedSyncProtocol automerge State Message} {actors : ChangeActors}
  {encodeHeader : KeyedDocFrameHeader → Bytes} {kinds : List (KeyedDocKind Room)}
  {rooms : Points → Room} {room : KeyedRoom State Room} {key : KeyedDocKey}
  {event : KeyedEvent Room}

-- A peer with the scope of a runtime peer names no epoch newer than the replica's.
def NotAhead (room : KeyedRoom State Room) : KeyedEvent Room → Prop
  | .PeerFrame _ identity payload _ => identity.scope = .RuntimePeer →
      ∀ header body hubDoc, tryParse payload = .ok (header, body) →
        room.hub.docs.find header.key = some hubDoc → header.epoch ≤ hubDoc.epoch
  | _ => True

-- The change arrived in a frame for the document whose header named the epoch.
def Named (protocol : KeyedSyncProtocol automerge State Message)
    (events : List (KeyedEvent Room)) (key : KeyedDocKey) (epoch : Nat) (change : ChangeHash) :
    Prop :=
  ∃ payload frame, (.RuntimeFrame payload ∈ events ∨
      ∃ peer identity reads, .PeerFrame peer identity payload reads ∈ events) ∧
    Carries protocol payload frame ∧ frame.header.key = key ∧ frame.header.epoch = epoch ∧
    change ∈ protocol.changes frame.message

theorem Named.append (hn : Named protocol events key epoch change) :
    Named protocol (events ++ later) key epoch change := by
  obtain ⟨payload, frame, hin, hr⟩ := hn
  refine ⟨payload, frame, hin.imp (List.mem_append_left _) ?_, hr⟩
  rintro ⟨peer, identity, reads, hm⟩
  exact ⟨peer, identity, reads, List.mem_append_left _ hm⟩

theorem named_run
    (hr : Run (Guarded (KeyedStep protocol actors encodeHeader) NotAhead) (.new kinds rooms)
      events room) :
    ∀ key, ∀ replica ∈ room.hub.replicas key, ∀ change ∈ replica.2,
      Named protocol events key replica.1 change := by
  refine hr.history (fun past room => ∀ key, ∀ replica ∈ room.hub.replicas key,
    ∀ change ∈ replica.2, Named protocol past key replica.1 change) ?_ ?_
  · rintro _ before event _ - ih ⟨hg, rfl⟩ key replica hm change hc
    obtain ⟨_, hf, hm⟩ := mem_replicas.mp hm
    have hmove := step_move encodeHeader before key event hf
    obtain ⟨earlier, hin, he, hh⟩ | ⟨payload, frame, rfl, hcarries, hk, he, hchange⟩ |
      ⟨peer, identity, payload, reads, kind, read, hubDoc, header, body, state, rfl, hp, hk,
        hkind, hread, hfound, he, hnew, ha, hrefused⟩ := hmove.source hm hc
    · rw [← he]
      exact (ih key earlier hin change hh).append
    · exact ⟨payload, frame, .inl (by simp), hcarries, hk, he, hchange⟩
    · obtain ho | ⟨hcheck, message, hd, hchange⟩ := admitPeerMessage_adds ha
      · exact absurd ho hnew
      · obtain ⟨hle, hexact⟩ := checkFrameEpoch_ok hcheck
        have hn : header.epoch = replica.1 := by
          rw [he]
          by_cases hs : identity.scope = .RuntimePeer
          · subst hk
            exact le_antisymm (hg hs header body hubDoc hp hfound) hle
          · exact hexact (writeScope_ne hs)
        exact ⟨payload, ⟨header, message⟩, .inr ⟨peer, identity, reads, by simp⟩,
          ⟨body, hp, hd⟩, hk, hn, hchange⟩
  · intro key replica hm
    simp [KeyedDocHub.replicas, KeyedRoom.new, KeyedDocHub.new] at hm

theorem ensureEpoch_le (epoch : Nat) (hf : docs.find key = some before) :
    before.epoch ≤ (ensureEpoch docs key epoch).epoch := by
  unfold ensureEpoch
  simp only [hf]
  split
  · rename_i hlt
    exact hlt.le
  · exact le_refl _

theorem receiveProduced_epoch :
    (receiveProduced protocol kind own hubDoc state message).1.epoch = hubDoc.epoch := by
  obtain hs | ⟨hp, -⟩ := receiveProduced_cases kind own hubDoc state message protocol
  · rw [hs]
  · rw [hp]
    rfl

theorem Move.epoch_le (hf : room.hub.docs.find key = some before)
    (hm : Move protocol actors room key event (some after) refused) :
    before.epoch ≤ after.epoch := by
  generalize ha : some after = stored at hm
  cases hm with
  | Same =>
    rw [hf] at ha
    rw [some.inj ha]
  | Removed => cases ha
  | Produced =>
    rw [some.inj ha, receiveProduced_epoch]
    exact ensureEpoch_le _ hf
  | Untouched =>
    rw [some.inj ha]
    exact ensureEpoch_le _ hf
  | Answered peer identity payload reads kind read hubDoc header body state hparsed hkey hkind hread
      hfound hready =>
      rw [hf] at hfound
      rw [some.inj ha, some.inj hfound]

theorem Move.unready {payload : Bytes}
    (hm : Move protocol actors room key (.PeerFrame peer identity payload reads) (some after)
      refused) :
    (after.ready = false → ∀ change ∈ after.doc, ∃ before, room.hub.docs.find key = some before ∧
      before.epoch = after.epoch ∧ change ∈ before.doc) ∧
    (after.ready = true → ∃ before, room.hub.docs.find key = some before ∧ before.ready = true) := by
  generalize ha : some after = stored at hm
  cases hm with
  | Same => exact ⟨fun _ change hc => ⟨after, ha.symm, rfl, hc⟩, fun h => ⟨after, ha.symm, h⟩⟩
  | Untouched =>
    obtain rfl := some.inj ha
    refine ⟨fun _ change hc => ?_, fun h => ⟨_, ensureEpoch_ready h, h⟩⟩
    unfold ensureEpoch at hc ⊢
    cases hf : room.hub.docs.find key with
    | none => simp [hf, HubDoc.new] at hc
    | some before =>
      simp only [hf] at hc ⊢
      split at hc
      · simp [HubDoc.succeed] at hc
      · exact ⟨before, rfl, by rw [dif_neg ‹_›], hc⟩
  | Answered peer identity payload reads kind read hubDoc header body state hparsed hkey hkind hread
      hfound hr =>
      obtain rfl := some.inj ha
      refine ⟨fun hu => ?_, fun _ => ⟨hubDoc, hfound, hr⟩⟩
      rw [hr] at hu
      cases hu

-- Changes stay in the replica of the epoch named by their frame, and peers write to ready replicas
-- only.
theorem epochs_isolated {events : List (KeyedEvent Room)}
    (hr : Run (Guarded (KeyedStep protocol actors encodeHeader) NotAhead) (.new kinds rooms) events
      room) :
    (∀ key, ∀ replica ∈ room.hub.replicas key, ∀ change ∈ replica.2,
      Named protocol events key replica.1 change) ∧
    (∀ event key before after, room.hub.docs.find key = some before →
      (room.step protocol actors encodeHeader event).hub.docs.find key = some after →
      before.epoch ≤ after.epoch) ∧
    ∀ peer identity payload reads key after,
      (room.step protocol actors encodeHeader
        (.PeerFrame peer identity payload reads)).hub.docs.find key = some after →
      (after.ready = false → ∀ change ∈ after.doc, ∃ before, room.hub.docs.find key = some before ∧
        before.epoch = after.epoch ∧ change ∈ before.doc) ∧
      (after.ready = true → ∃ before, room.hub.docs.find key = some before ∧
        before.ready = true) := by
  refine ⟨named_run hr, ?_, ?_⟩
  · intro event key before after hb ha
    have hm := step_move encodeHeader room key _ ha
    exact hm.epoch_le hb
  · intro peer identity payload reads key after ha
    have hm := step_move encodeHeader room key _ ha
    exact hm.unready

theorem editor_frame_named :
    let events := [SEED_FRAME, editorFrame 1]
    (followKeyed events).hub.replicas PLAIN_KEY = [(1, {0, 1})] ∧
      Named referenceKeyed events PLAIN_KEY 1 1 := by
  intro events
  have hr : (followKeyed events).hub.replicas PLAIN_KEY = [(1, {0, 1})] := by decide +kernel
  have hg : ∀ event ∈ events, ∀ room : KeyedRoom (Option (List ChangeHash)) Unit,
      NotAhead room event := by
    intro event hm room
    simp only [events, List.mem_cons, List.not_mem_nil, or_false] at hm
    rcases hm with rfl | rfl
    · trivial
    · intro hs
      cases hs
  have hi := epochs_isolated ((run_followKeyed events).guarded hg)
  exact ⟨hr, hi.1 PLAIN_KEY (1, {0, 1})
    (by rw [hr]; exact (.head _)) 1 (by decide)⟩

def AHEAD_FRAME : KeyedEvent Unit :=
  .PeerFrame "runtime" { hostedEditor with scope := .RuntimePeer }
    (frameOf NEXT_HEADER ++ digestBytes 1) [WRITABLE]

-- The replica of epoch 1 takes a change for epoch 2.
theorem newer_frame_merged :
    ∃ (events : List (KeyedEvent Unit)) (room : KeyedRoom (Option (List ChangeHash)) Unit),
      Run (KeyedStep referenceKeyed seedActors fun _ => []) (.new [plainKind] fun _ => ()) events
        room ∧
      room.hub.replicas PLAIN_KEY = [(1, {0, 1})] ∧ ¬ Named referenceKeyed events PLAIN_KEY 1 1 := by
  refine ⟨[SEED_FRAME, AHEAD_FRAME], _, run_followKeyed _, by decide +kernel, ?_⟩
  rintro ⟨_, _, hm, hcarries, -, he, hc⟩
  simp only [SEED_FRAME, AHEAD_FRAME, List.mem_cons, List.not_mem_nil, reduceCtorEq, or_false,
    false_or, KeyedEvent.RuntimeFrame.injEq, KeyedEvent.PeerFrame.injEq] at hm
  rcases hm with rfl | ⟨_, _, _, -, -, rfl, -⟩
  · have hs : tryParse (frameOf PLAIN_HEADER ++ digestBytes 0) =
        .ok (⟨[97], [98], 1⟩, digestBytes 0) := by decide +kernel
    rw [single_carried hcarries hs] at hc
    revert hc
    decide
  · have ha : tryParse (frameOf NEXT_HEADER ++ digestBytes 1) =
        .ok (⟨[97], [98], 2⟩, digestBytes 1) := by decide +kernel
    rw [single_carried hcarries ha] at he
    cases he

-- All heads that the producer advertised are there and nothing is missing.
def CompletedBy (protocol : KeyedSyncProtocol automerge State Message) (event : KeyedEvent Room)
    (key : KeyedDocKey) (replica : Nat × Document) : Prop :=
  ∃ payload frame, event = .RuntimeFrame payload ∧ Carries protocol payload frame ∧
    frame.header.key = key ∧ frame.header.epoch = replica.1 ∧
    (∀ head ∈ protocol.heads frame.message, automerge.getChangeByHash replica.2 head = true) ∧
    automerge.getMissingDeps replica.2 [] = []

-- A usable replica grows, or a complete one of a later epoch replaces it.
def Succeeds (protocol : KeyedSyncProtocol automerge State Message) (event : KeyedEvent Room)
    (key : KeyedDocKey) (replica next : Nat × Document) : Prop :=
  next.1 = replica.1 ∧ replica.2 ⊆ next.2 ∨ replica.1 < next.1 ∧ CompletedBy protocol event key next

variable {replica : Nat × Document}

theorem usable_grown {hubDoc : HubDoc} (hu : hubDoc.usable = some replica) (hs : hubDoc.doc ⊆ doc) :
    ∃ next, ({ hubDoc with doc := doc } : HubDoc).usable = some next ∧ next.1 = replica.1 ∧
      replica.2 ⊆ next.2 := by
  obtain hr | ⟨hr, hready, rfl⟩ := HubDoc.usable_eq_some.mp hu
  · exact ⟨replica, HubDoc.usable_eq_some.mpr (.inl hr), rfl, Finset.Subset.refl _⟩
  · exact ⟨(hubDoc.epoch, doc), HubDoc.usable_eq_some.mpr (.inr ⟨hr, hready, rfl⟩), rfl, hs⟩

theorem Move.usable {stored : Option HubDoc}
    (hmove : Move protocol actors room key event stored refused)
    (hu : (room.hub.docs.find key).bind HubDoc.usable = some replica) :
    (∃ keys, event = .Removed keys ∧ key ∈ keys) ∨
      ∃ next, stored.bind HubDoc.usable = some next ∧ Succeeds protocol event key replica next := by
  obtain ⟨_, hf, hu⟩ := bind_eq_some_iff.mp hu
  have he : ∀ epoch, (ensureEpoch room.hub.docs key epoch).usable = some replica :=
    fun epoch => (ensureEpoch_usable hf).trans hu
  have hsame : Succeeds protocol event key replica replica :=
    .inl ⟨rfl, Finset.Subset.refl _⟩
  cases hmove with
  | Same =>
    right
    rw [hf]
    exact ⟨replica, hu, hsame⟩
  | Removed keys hm => exact .inl ⟨keys, rfl, hm⟩
  | Produced payload frame kind state hc hk _ hle =>
    right
    rw [bind_some]
    obtain hg | ⟨hp, hready, hh, hmissing⟩ := receiveProduced_cases kind
      (room.hub.rooms key.kind) (ensureEpoch room.hub.docs key frame.header.epoch) state
      frame.message protocol
    · rw [hg]
      obtain ⟨next, hn, hepoch, hs⟩ := usable_grown (he frame.header.epoch)
        (protocol.receive_grows _ state frame.message)
      exact ⟨next, hn, .inl ⟨hepoch, hs⟩⟩
    · rw [hp]
      refine ⟨_, rfl, .inr ⟨?_, payload, frame, rfl, hc, hk, ?_, hh, hmissing⟩⟩
      · -- before it was ready, the retained replica was the usable one
        obtain hr | ⟨-, hready', -⟩ := HubDoc.usable_eq_some.mp (he frame.header.epoch)
        · exact (ensureEpoch room.hub.docs key frame.header.epoch).older replica hr
        · rw [hready] at hready'
          cases hready'
      · exact (ensureEpoch_epoch hle).symm
  | Untouched _ _ _ _ _ epoch =>
    exact .inr ⟨replica, he epoch, hsame⟩
  | Answered peer identity payload reads kind read hubDoc header body state hparsed hk hkind hread
      hfound hready =>
      right
      rw [hf] at hfound
      obtain rfl := some.inj hfound
      rw [bind_some]
      obtain ⟨next, hn, hepoch, hs⟩ := usable_grown hu admitPeerMessage_grows
      exact ⟨next, hn, .inl ⟨hepoch, hs⟩⟩

theorem step_usable (event : KeyedEvent Room) (hu : room.hub.withDoc key = some replica)
    (hk : ∀ keys, event = .Removed keys → key ∉ keys) :
    ∃ next, (room.step protocol actors encodeHeader event).hub.withDoc key = some next ∧
      Succeeds protocol event key replica next := by
  have hmove : Move protocol actors room key event _ _ :=
    step_move encodeHeader room key event rfl
  obtain ⟨keys, he, hm⟩ | hn := hmove.usable hu
  · exact absurd hm (hk keys he)
  · exact hn

theorem run_usable (hr : Run (KeyedStep protocol actors encodeHeader) room later last)
    (hu : room.hub.withDoc key = some replica)
    (hk : ∀ keys, .Removed keys ∈ later → key ∉ keys) :
    ∃ next, last.hub.withDoc key = some next ∧ replica.1 ≤ next.1 := by
  induction hr generalizing replica with
  | nil => exact ⟨replica, hu, le_refl _⟩
  | @cons first _ last event events hs _ ih =>
    obtain rfl := hs
    obtain ⟨_, hmiddle, hsucceeds⟩ := step_usable event hu (fun keys he => hk keys (he ▸ (.head _)))
    obtain ⟨next, hn, hle⟩ := ih hmiddle fun keys hm => hk keys (.tail _ hm)
    refine ⟨next, hn, le_trans ?_ hle⟩
    obtain ⟨hepoch, -⟩ | ⟨hlt, -⟩ := hsucceeds
    · exact hepoch.ge
    · exact hlt.le

theorem Move.kind (hm : Move protocol actors room key event (some after) refused) :
    room.hub.docs.find key = some after ∨ ∃ kind, room.hub.kinds.find key.kind = some kind := by
  generalize ha : some after = stored at hm
  cases hm with
  | Same => exact .inl rfl
  | Removed => cases ha
  | Produced _ _ kind _ _ _ hk => exact .inr ⟨kind, hk⟩
  | Untouched _ _ _ _ kind _ _ hk => exact .inr ⟨kind, hk⟩
  | Answered _ _ _ _ kind _ _ _ _ _ _ _ hk =>
    exact .inr ⟨kind, hk⟩

theorem held_kind
    (hr : Run (KeyedStep protocol actors encodeHeader) (.new kinds rooms) events room) :
    ∀ key hubDoc, room.hub.docs.find key = some hubDoc →
      ∃ kind, room.hub.kinds.find key.kind = some kind := by
  refine hr.invariant (fun room => ∀ key hubDoc, room.hub.docs.find key = some hubDoc →
    ∃ kind, room.hub.kinds.find key.kind = some kind) ?_ ?_
  · rintro before event _ ih rfl key hubDoc hf
    rw [step_kinds]
    have hm := step_move encodeHeader before key event hf
    rcases hm.kind with hs | hk
    · exact ih key hubDoc hs
    · exact hk
  · intro key hubDoc hf
    cases hf

theorem mem_blobRoots {hub : KeyedDocHub Room} (hf : hub.docs.find key = some hubDoc)
    (hk : hub.kinds.find key.kind = some kind) (hm : replica ∈ hubDoc.replicas)
    (hb : blob ∈ kind.referencedBlobs (hub.rooms key.kind) replica.2) : blob ∈ hub.blobRoots := by
  unfold KeyedDocHub.blobRoots
  refine List.mem_append_right _ (List.mem_flatMap.mpr ⟨(key, hubDoc), Table.find_eq_some.mp hf, ?_⟩)
  dsimp only
  rw [hk]
  rcases List.mem_cons.mp hm with rfl | hretained
  · exact List.mem_append_left _ hb
  · refine List.mem_append_right _ ?_
    have hr : hubDoc.retained = some replica := by simpa using hretained
    obtain ⟨_, _⟩ := replica
    rw [hr]
    exact hb

-- A usable replica stays until it is removed or a complete one replaces it.
theorem usable_survives {events : List (KeyedEvent Room)}
    (hr : Run (KeyedStep protocol actors encodeHeader) (.new kinds rooms) events room) :
    (∀ key replica later last, room.hub.withDoc key = some replica →
      Run (KeyedStep protocol actors encodeHeader) room later last →
      (∀ keys, .Removed keys ∈ later → key ∉ keys) →
      ∃ next, last.hub.withDoc key = some next ∧ replica.1 ≤ next.1) ∧
    (∀ key replica event, room.hub.withDoc key = some replica →
      (∀ keys, event = .Removed keys → key ∉ keys) →
      ∃ next, (room.step protocol actors encodeHeader event).hub.withDoc key = some next ∧
        Succeeds protocol event key replica next) ∧
    ∀ key replica, room.hub.withDoc key = some replica →
      ∃ kind, room.hub.kinds.find key.kind = some kind ∧
        ∀ blob ∈ kind.referencedBlobs (room.hub.rooms key.kind) replica.2,
          blob ∈ room.hub.blobRoots := by
  refine ⟨fun key replica later last hu hlater hkept => run_usable hlater hu hkept,
    fun key replica event hu hkept => step_usable event hu hkept, ?_⟩
  intro key replica hu
  obtain ⟨hubDoc, hf, hu⟩ := bind_eq_some_iff.mp hu
  obtain ⟨kind, hk⟩ := held_kind hr key hubDoc hf
  exact ⟨kind, hk, fun blob hb => mem_blobRoots hf hk (HubDoc.usable_mem_replicas hu) hb⟩

-- A record announces epoch 2, whose replica is empty until the runtime agent fills it.
def ANNOUNCED_FRAME : KeyedEvent Unit :=
  .PeerFrame "desktop" hostedEditor (frameOf NEXT_HEADER ++ digestBytes 1)
    [⟨0, some ⟨2, true, "open"⟩⟩]

def NEXT_FRAME : KeyedEvent Unit := .RuntimeFrame (frameOf NEXT_HEADER ++ digestBytes 2)

theorem kinds_followKeyed (events : List (KeyedEvent Unit)) :
    (followKeyed events).hub.kinds = (KeyedDocHub.new [plainKind] fun _ => ()).kinds := by
  refine (run_followKeyed events).invariant
    (fun room => room.hub.kinds = (KeyedDocHub.new [plainKind] fun _ => ()).kinds) ?_ rfl
  rintro _ _ _ hk rfl
  rw [step_kinds, hk]

theorem seed_survives_announcement :
    let room := followKeyed [SEED_FRAME, ANNOUNCED_FRAME]
    room.hub.withDoc PLAIN_KEY = some (1, {0}) ∧
      room.hub.docs.find PLAIN_KEY ≠ none ∧ "blob" ∈ room.hub.blobRoots ∧
      ∃ next, (room.step referenceKeyed seedActors (fun _ => []) NEXT_FRAME).hub.withDoc PLAIN_KEY =
        some next ∧ Succeeds referenceKeyed NEXT_FRAME PLAIN_KEY (1, {0}) next := by
  intro room
  have hh : room.hub.withDoc PLAIN_KEY = some (1, {0}) := by decide +kernel
  have hs := usable_survives (run_followKeyed [SEED_FRAME, ANNOUNCED_FRAME])
  have hf : (room.hub.docs.find PLAIN_KEY).isSome = true := by decide +kernel
  have hkinds : room.hub.kinds.find PLAIN_KEY.kind = some plainKind := by
    rw [kinds_followKeyed]
    rfl
  obtain ⟨_, hk, hb⟩ := hs.2.2 PLAIN_KEY _ hh
  rw [hkinds] at hk
  obtain rfl := some.inj hk
  exact ⟨hh, isSome_iff_ne_none.mp hf, hb "blob" (by decide),
    hs.2.1 PLAIN_KEY _ NEXT_FRAME hh nofun⟩

end Nteract.KeyedDoc
