import Nteract.KeyedDoc.Moves

namespace Nteract.KeyedDoc

open Identity Lib Lib.Bytes Lib.JsonText Lib.Transition PeerSync Recovery RuntimeDoc List

variable {State Message Room : Type} {protocol : KeyedSyncProtocol automerge State Message}
  {actors : ChangeActors} {room : KeyedRoom State Room} {key : KeyedDocKey}
  {event : KeyedEvent Room}

variable {replica : Nat × Document} {change : ChangeHash}

theorem mem_replicas {hub : KeyedDocHub Room} : replica ∈ hub.replicas key ↔
      ∃ hubDoc, hub.docs.find key = some hubDoc ∧ replica ∈ hubDoc.replicas := by
  unfold KeyedDocHub.replicas
  cases hub.docs.find key with
  | none | some => simp

theorem receiveProduced_replicas
    (hm : replica ∈ (receiveProduced protocol kind own hubDoc state message).1.replicas)
    (hc : change ∈ replica.2) :
    (∃ earlier ∈ hubDoc.replicas, earlier.1 = replica.1 ∧ change ∈ earlier.2) ∨
      replica.1 = hubDoc.epoch ∧ change ∈ protocol.changes message := by
  have hreceived : replica = (hubDoc.epoch, (protocol.receive hubDoc.doc state message).document) ∨
      replica ∈ hubDoc.retained.toList := by
    obtain hs | ⟨hp, -⟩ := receiveProduced_cases kind own hubDoc state message protocol
    · rw [hs] at hm
      exact mem_cons.mp hm
    · rw [hp] at hm
      refine (mem_cons.mp hm).imp_right fun h => ?_
      simp [HubDoc.promote] at h
  rcases hreceived with rfl | hr
  · rcases Finset.mem_union.mp (protocol.receive_adds hubDoc.doc state message hc) with ho | hn
    · exact .inl ⟨(hubDoc.epoch, hubDoc.doc), (.head _), rfl, ho⟩
    · exact .inr ⟨rfl, hn⟩
  · exact .inl ⟨replica, .tail _ hr, rfl, hc⟩

theorem ensureEpoch_source {epoch : Nat}
    (hm : replica ∈ (ensureEpoch room.hub.docs key epoch).replicas) (hc : change ∈ replica.2) :
    ∃ earlier ∈ room.hub.replicas key, earlier.1 = replica.1 ∧ change ∈ earlier.2 := by
  obtain rfl | ⟨hubDoc, hf, hm⟩ := ensureEpoch_replicas hm
  · simp at hc
  · exact ⟨replica, mem_replicas.mpr ⟨hubDoc, hf, hm⟩, rfl, hc⟩

-- A change of a replica was there before, or the event has brought it.
theorem Move.source {after : HubDoc}
    (hmove : Move protocol actors room key event (some after) refused)
    (hm : replica ∈ after.replicas) (hc : change ∈ replica.2) :
    (∃ earlier ∈ room.hub.replicas key, earlier.1 = replica.1 ∧ change ∈ earlier.2) ∨
    (∃ payload frame, event = .RuntimeFrame payload ∧ Carries protocol payload frame ∧
      frame.header.key = key ∧ frame.header.epoch = replica.1 ∧
      change ∈ protocol.changes frame.message) ∨
    (∃ peer identity payload reads kind read hubDoc header body state,
      event = .PeerFrame peer identity payload reads ∧ tryParse payload = .ok (header, body) ∧
      header.key = key ∧ room.hub.kinds.find key.kind = some kind ∧ read ∈ reads ∧
      room.hub.docs.find key = some hubDoc ∧ replica.1 = hubDoc.epoch ∧ change ∉ hubDoc.doc ∧
      change ∈ (admitPeerMessage protocol actors kind (room.hub.rooms key.kind) hubDoc.doc state
        body header.epoch ⟨writeScope identity.scope, hubDoc.epoch⟩ read.record identity).doc ∧
      refused = (admitPeerMessage protocol actors kind (room.hub.rooms key.kind) hubDoc.doc state
        body header.epoch ⟨writeScope identity.scope, hubDoc.epoch⟩ read.record
        identity).refused) := by
  generalize ha : some after = stored at hmove
  cases hmove with
  | Same => exact .inl ⟨replica, mem_replicas.mpr ⟨after, ha.symm, hm⟩, rfl, hc⟩
  | Removed => cases ha
  | Produced payload frame _ _ hcarries hk _ hle =>
    obtain rfl := Option.some.inj ha
    obtain ⟨earlier, he, hepoch, hchange⟩ | ⟨hepoch, hchange⟩ := receiveProduced_replicas hm hc
    · obtain ⟨first, hfirst, hs, hh⟩ := ensureEpoch_source he hchange
      exact .inl ⟨first, hfirst, hs.trans hepoch, hh⟩
    · rw [ensureEpoch_epoch hle] at hepoch
      exact .inr (.inl ⟨payload, frame, rfl, hcarries, hk, hepoch.symm, hchange⟩)
  | Untouched =>
    obtain rfl := Option.some.inj ha
    exact .inl (ensureEpoch_source hm hc)
  | Answered peer identity payload reads kind read hubDoc header body state hparsed hk hkind hread
      hf hready =>
      obtain rfl := Option.some.inj ha
      by_cases ho : ∃ earlier ∈ hubDoc.replicas, earlier.1 = replica.1 ∧ change ∈ earlier.2
      · obtain ⟨earlier, he, hepoch, hh⟩ := ho
        exact .inl ⟨earlier, mem_replicas.mpr ⟨hubDoc, hf, he⟩, hepoch, hh⟩
      · rcases mem_cons.mp hm with rfl | hr
        · refine .inr (.inr ⟨peer, identity, payload, reads, kind, read, hubDoc, header, body, state,
            rfl, hparsed, hk, hkind, hread, hf, rfl, fun hin => ho ?_, hc, rfl⟩)
          exact ⟨(hubDoc.epoch, hubDoc.doc), (.head _), rfl, hin⟩
        · exact absurd ⟨replica, .tail _ hr, rfl, hc⟩ ho

section Runs

variable (protocol actors) (encodeHeader : KeyedDocFrameHeader → Bytes)
  (kinds : List (KeyedDocKind Room)) (rooms : Points → Room)

def KeyedStep (before : KeyedRoom State Room) (event : KeyedEvent Room)
    (after : KeyedRoom State Room) : Prop :=
  before.step protocol actors encodeHeader event = after

def FromRuntime (events : List (KeyedEvent Room)) (key : KeyedDocKey) (change : ChangeHash) :
    Prop :=
  ∃ payload frame, .RuntimeFrame payload ∈ events ∧ Carries protocol payload frame ∧
    frame.header.key = key ∧ change ∈ protocol.changes frame.message

-- The change arrived in a peer's message that was not refused and passed admission.
def FromPeer (events : List (KeyedEvent Room)) (key : KeyedDocKey) (change : ChangeHash) : Prop :=
  ∃ earlier before peer identity payload reads later,
    events = earlier ++ .PeerFrame peer identity payload reads :: later ∧
    Run (KeyedStep protocol actors encodeHeader) (.new kinds rooms) earlier before ∧
    before.refuses protocol actors encodeHeader (.PeerFrame peer identity payload reads) = false ∧
    ∃ frame kind read hubDoc, Carries protocol payload frame ∧ frame.header.key = key ∧
      before.hub.kinds.find key.kind = some kind ∧ read ∈ reads ∧
      before.hub.docs.find key = some hubDoc ∧
      Passed protocol actors kind (before.hub.rooms key.kind) hubDoc.doc frame.message
        ⟨writeScope identity.scope, hubDoc.epoch⟩ read.record identity change

variable {protocol actors encodeHeader kinds rooms}

theorem FromRuntime.append (hf : FromRuntime protocol events key change) :
    FromRuntime protocol (events ++ later) key change := by
  obtain ⟨payload, frame, hm, hr⟩ := hf
  exact ⟨payload, frame, mem_append_left _ hm, hr⟩

theorem FromPeer.append (hf : FromPeer protocol actors encodeHeader kinds rooms events key change) :
    FromPeer protocol actors encodeHeader kinds rooms (events ++ later) key change := by
  obtain ⟨earlier, before, peer, identity, payload, reads, rest, rfl, hr⟩ := hf
  exact ⟨earlier, before, peer, identity, payload, reads, rest ++ later, by simp, hr⟩

theorem writeScope_ne (hs : scope ≠ .RuntimePeer) : writeScope scope ≠ .RuntimePeer := by
  cases scope with
  | RuntimePeer => exact absurd rfl hs
  | _ => exact nofun

def PeerScopes (events : List (KeyedEvent Room)) : Prop :=
  ∀ peer identity payload reads, .PeerFrame peer identity payload reads ∈ events →
    identity.scope ≠ .RuntimePeer

theorem sound_run {events : List (KeyedEvent Room)}
    (hr : Run (KeyedStep protocol actors encodeHeader) (.new kinds rooms) events room)
    (hs : PeerScopes events) :
    ∀ key, ∀ replica ∈ room.hub.replicas key, ∀ change ∈ replica.2,
      FromRuntime protocol events key change ∨
        FromPeer protocol actors encodeHeader kinds rooms events key change := by
  refine hr.history (fun past room => PeerScopes past → ∀ key, ∀ replica ∈ room.hub.replicas key,
    ∀ change ∈ replica.2, FromRuntime protocol past key change ∨
      FromPeer protocol actors encodeHeader kinds rooms past key change) ?_ ?_ hs
  · rintro past before event _ hpast ih rfl hs key replica hm change hc
    have he : PeerScopes past :=
      fun peer identity payload reads h => hs _ _ _ _ (mem_append_left _ h)
    obtain ⟨_, hf, hm⟩ := mem_replicas.mp hm
    have hmove := step_move encodeHeader before key event hf
    obtain ⟨earlier, hin, -, hh⟩ | ⟨payload, frame, rfl, hcarries, hk, -, hchange⟩ |
      ⟨peer, identity, payload, reads, kind, read, hubDoc, header, body, state, rfl, hparsed, hk,
        hkind, hread, hfound, -, hnew, hadded, hrefused⟩ := hmove.source hm hc
    · exact (ih he key earlier hin change hh).imp FromRuntime.append FromPeer.append
    · exact .inl ⟨payload, frame, by simp, hcarries, hk, hchange⟩
    · have hscope := hs peer identity payload reads (by simp)
      obtain ho | ⟨ha, message, hd, hp⟩ :=
        admitPeerMessage_passed (writeScope_ne hscope) hadded
      · exact absurd ho hnew
      · refine .inr ⟨past, before, peer, identity, payload, reads, [], rfl, hpast,
          hrefused.trans ha, ⟨header, message⟩, kind, read, hubDoc, ?_, hk, hkind, hread,
          hfound, hp⟩
        exact ⟨body, hparsed, hd⟩
  · intro _ key replica hm
    simp [KeyedDocHub.replicas, KeyedRoom.new, KeyedDocHub.new] at hm

theorem admission_sound {events : List (KeyedEvent Room)}
    (hr : Run (KeyedStep protocol actors encodeHeader) (.new kinds rooms) events room)
    (hscopes : PeerScopes events) :
    (∀ key, ∀ replica ∈ room.hub.replicas key, ∀ change ∈ replica.2,
      FromRuntime protocol events key change ∨
        FromPeer protocol actors encodeHeader kinds rooms events key change) ∧
    ∀ peer identity payload reads, identity.scope ≠ .RuntimePeer →
      room.refuses protocol actors encodeHeader (.PeerFrame peer identity payload reads) = true →
      ∀ key, ∀ replica ∈ (room.step protocol actors encodeHeader
        (.PeerFrame peer identity payload reads)).hub.replicas key, ∀ change ∈ replica.2,
        ∃ earlier ∈ room.hub.replicas key, earlier.1 = replica.1 ∧ change ∈ earlier.2 := by
  refine ⟨sound_run hr hscopes, ?_⟩
  intro peer identity payload reads hscope hrefuses key replica hm change hc
  obtain ⟨_, hf, hm⟩ := mem_replicas.mp hm
  have hmove := step_move encodeHeader room key _ hf
  rw [hrefuses] at hmove
  obtain hk | ⟨_, _, he, -⟩ | ⟨_, _, _, _, kind, read, hubDoc, header, body, state, he, -,
    -, -, -, -, -, hnew, hadded, hrefused⟩ := hmove.source hm hc
  · exact hk
  · cases he
  · cases he
    obtain ho | ⟨ha, -⟩ := admitPeerMessage_passed (writeScope_ne hscope) hadded
    · exact absurd ho hnew
    · rw [ha] at hrefused
      cases hrefused

end Runs

-- Messages are the changes they carry, each advertised as a head.
def referenceKeyed : KeyedSyncProtocol (referenceAutomerge fun _ => []) (Option (List ChangeHash))
    (List ChangeHash) where
  new := none
  decode bytes := .ok (readDigests bytes.length bytes)
  changes := List.toFinset
  withoutChanges _ := []
  receive document _ message := ⟨.ok (), document ∪ message.toFinset, some message⟩
  isRecoverableSyncError _ := false
  generate document state := (some (sortedList document), state)
  changes_withoutChanges := toFinset_withoutChanges
  receive_grows _ _ _ := Finset.subset_union_left
  receive_adds _ _ _ := Finset.Subset.refl _
  receive_ok _ _ _ _ := Finset.subset_union_right
  generate_changes document state message hg := by
    cases hg
    exact fun change hc => mem_sortedList.mp (mem_toFinset.mp hc)
  acyclic := acyclic_of_no_deps
  encode message := message.flatMap digestBytes
  heads := id
  theirHeads := id
  fullRequest _ := []
  theirHeads_new := rfl
  theirHeads_receive _ _ _ _ := rfl

-- A kind that accepts every content, whose documents refer to one blob.
def plainKind : KeyedDocKind Unit where
  kind := [97]
  cap := 1000
  validatePeerChanges _ _ _ _ := .ok ()
  referencedBlobs _ _ := ["blob"]
  roomBlobRoots _ := []
  isRuntimeSnapshotReady _ _ _ := true
  onRuntimeChange room _ _ _ := room

def PLAIN_KEY : KeyedDocKey := ⟨[97], [98]⟩

def NEXT_HEADER : Bytes := ascii "\x7b\"kind\":\"a\",\"id\":\"b\",\"epoch\":2\x7d"

def followKeyed (events : List (KeyedEvent Unit)) : KeyedRoom (Option (List ChangeHash)) Unit :=
  events.foldl (fun room event => room.step referenceKeyed seedActors (fun _ => []) event)
    (.new [plainKind] fun _ => ())

theorem run_followKeyed (events : List (KeyedEvent Unit)) :
    Run (KeyedStep referenceKeyed seedActors fun _ => []) (.new [plainKind] fun _ => ()) events
      (followKeyed events) := by
  unfold followKeyed
  generalize KeyedRoom.new [plainKind] (fun _ => ()) = room
  induction events generalizing room with
  | nil => exact .nil room
  | cons _ _ ih => exact .cons rfl (ih _)

theorem single_carried {payload : Bytes} (hc : Carries referenceKeyed payload frame)
    (hp : tryParse payload = .ok (header, digestBytes change)) : frame = ⟨header, [change]⟩ := by
  obtain ⟨_, hparsed, hd⟩ := hc
  rw [hp] at hparsed
  obtain ⟨hh, rfl⟩ := Prod.mk.inj (Except.ok.inj hparsed)
  have hr : readDigests (digestBytes change).length (digestBytes change) = [change] := by
    simpa using readDigests_flatMap (digestBytes change).length [change] (by simp)
  have hm : readDigests (digestBytes change).length (digestBytes change) = frame.message :=
    Except.ok.inj hd
  rw [hr] at hm
  rw [hh, hm]

def SEED_FRAME : KeyedEvent Unit := .RuntimeFrame (frameOf PLAIN_HEADER ++ digestBytes 0)

def localEditor : RoomConnectionIdentity :=
  ⟨⟨"local:1000", by decide +kernel⟩, .Editor, .AllowLocalSameUid⟩

def WRITABLE : RecordRead := ⟨0, some ⟨1, true, "open"⟩⟩

def editorFrame (change : ChangeHash) : KeyedEvent Unit :=
  .PeerFrame "desktop" hostedEditor (frameOf PLAIN_HEADER ++ digestBytes change) [WRITABLE]

-- The runtime agent sends the seed and a hosted editor adds a change of its own.
theorem editor_change_admitted :
    let events := [SEED_FRAME, editorFrame 1]
    (followKeyed events).hub.replicas PLAIN_KEY = [(1, {0, 1})] ∧
      ¬ FromRuntime referenceKeyed events PLAIN_KEY 1 ∧
      FromPeer referenceKeyed seedActors (fun _ => []) [plainKind] (fun _ => ()) events PLAIN_KEY
        1 := by
  intro events
  have hr : (followKeyed events).hub.replicas PLAIN_KEY = [(1, {0, 1})] := by decide +kernel
  have hs : PeerScopes events := by
    intro peer identity payload reads hm
    simp only [events, SEED_FRAME, editorFrame, mem_cons, not_mem_nil, reduceCtorEq,
      or_false, false_or, KeyedEvent.PeerFrame.injEq] at hm
    obtain ⟨-, rfl, -⟩ := hm
    decide
  have hruntime : ¬ FromRuntime referenceKeyed events PLAIN_KEY 1 := by
    rintro ⟨_, _, hm, hcarries, -, hc⟩
    simp only [events, SEED_FRAME, editorFrame, mem_cons, not_mem_nil, reduceCtorEq,
      or_false, KeyedEvent.RuntimeFrame.injEq] at hm
    subst hm
    have hseed : tryParse (frameOf PLAIN_HEADER ++ digestBytes 0) =
        .ok (⟨[97], [98], 1⟩, digestBytes 0) := by decide +kernel
    rw [single_carried hcarries hseed] at hc
    revert hc
    decide
  have hsound := (admission_sound (run_followKeyed events) hs).1 PLAIN_KEY (1, {0, 1})
    (by rw [hr]; exact (.head _)) 1 (by decide)
  exact ⟨hr, hruntime, hsound.resolve_left hruntime⟩

-- A client of a local room may leave out its principal, so the label is no one's.
theorem operator_label_admitted :
    let events := [.RuntimeFrame (frameOf PLAIN_HEADER ++ digestBytes 1),
      .PeerFrame "desktop" localEditor (frameOf PLAIN_HEADER ++ digestBytes 0) [WRITABLE]]
    (followKeyed events).hub.replicas PLAIN_KEY = [(1, {0, 1})] ∧
      ¬ FromRuntime referenceKeyed events PLAIN_KEY 0 ∧
      ¬ Belongs localEditor (seedActors.actorLabel 0) := by
  refine ⟨by decide +kernel, ?_, ?_⟩
  · rintro ⟨_, _, hm, hcarries, -, hc⟩
    simp only [mem_cons, not_mem_nil, reduceCtorEq, or_false, KeyedEvent.RuntimeFrame.injEq] at hm
    subst hm
    have hp : tryParse (frameOf PLAIN_HEADER ++ digestBytes 1) =
        .ok (⟨[97], [98], 1⟩, digestBytes 1) := by decide +kernel
    rw [single_carried hcarries hp] at hc
    revert hc
    decide
  · rintro ⟨_, hp, -⟩
    cases hp

end Nteract.KeyedDoc
