import Nteract.KeyedDoc.Hub
import Nteract.PeerSync.Theorems

namespace Nteract.KeyedDoc

open Identity Lib Lib.JsonText PeerSync Recovery RuntimeDoc Finset

variable {automerge : Automerge} {State Message Room : Type}

def HubDoc.replicas (hubDoc : HubDoc) : List (Nat × Document) :=
  (hubDoc.epoch, hubDoc.doc) :: hubDoc.retained.toList

def KeyedDocHub.replicas (hub : KeyedDocHub Room) (key : KeyedDocKey) : List (Nat × Document) :=
  match hub.docs.find key with
  | none => []
  | some hubDoc => hubDoc.replicas

theorem HubDoc.usable_mem_replicas {hubDoc : HubDoc} (hu : hubDoc.usable = some replica) :
    replica ∈ hubDoc.replicas := by
  unfold HubDoc.replicas
  obtain hr | ⟨-, -, rfl⟩ := HubDoc.usable_eq_some.mp hu
  · simp [hr]
  · exact (.head _)

theorem ensureEpoch_replicas (hm : replica ∈ (ensureEpoch docs key epoch).replicas) :
    replica = (epoch, ∅) ∨ ∃ hubDoc, docs.find key = some hubDoc ∧ replica ∈ hubDoc.replicas := by
  unfold ensureEpoch at hm
  cases hf : docs.find key with
  | none =>
    rw [hf] at hm
    simpa [HubDoc.new, HubDoc.replicas] using hm
  | some hubDoc =>
    rw [hf] at hm
    dsimp only at hm
    split at hm
    · rcases List.mem_cons.mp hm with rfl | hm
      · exact .inl rfl
      · right
        refine ⟨hubDoc, rfl, ?_⟩
        unfold HubDoc.succeed at hm
        split at hm
        · obtain rfl : replica = (hubDoc.epoch, hubDoc.doc) := by simpa using hm
          exact (.head _)
        · exact .tail _ hm
    · exact .inr ⟨hubDoc, rfl, hm⟩

theorem ensureEpoch_epoch (hle : ∀ hubDoc, docs.find key = some hubDoc → hubDoc.epoch ≤ epoch) :
    (ensureEpoch docs key epoch).epoch = epoch := by
  unfold ensureEpoch
  cases hf : docs.find key with
  | none => rfl
  | some hubDoc =>
    dsimp only
    split
    · rfl
    · exact le_antisymm (hle hubDoc hf) (not_lt.mp ‹_›)

theorem ensureEpoch_ready (hr : (ensureEpoch docs key epoch).ready = true) :
    docs.find key = some (ensureEpoch docs key epoch) := by
  unfold ensureEpoch at hr ⊢
  cases hf : docs.find key with
  | none => simp [hf, HubDoc.new] at hr
  | some =>
    simp only [hf] at hr ⊢
    split at hr
    · simp [HubDoc.succeed] at hr
    · rw [dif_neg ‹_›]

theorem ensureEpoch_usable (hf : docs.find key = some hubDoc) :
    (ensureEpoch docs key epoch).usable = hubDoc.usable := by
  unfold ensureEpoch
  simp only [hf]
  split
  · exact hubDoc.usable_succeed _
  · rfl

def Admission.refused (admission : Admission State Message) : Bool :=
  match admission.result with
  | .error _ => true
  | .ok _ => false

section Moves

variable (protocol : KeyedSyncProtocol automerge State Message) (actors : ChangeActors)

structure Frame (protocol : KeyedSyncProtocol automerge State Message) where
  header : KeyedDocFrameHeader
  message : Message

def Carries (payload : Bytes) (frame : Frame protocol) : Prop :=
  ∃ body, tryParse payload = .ok (frame.header, body) ∧ protocol.decode body = .ok frame.message

-- The last argument says whether the event is a refused message.
inductive Move (room : KeyedRoom State Room) (key : KeyedDocKey) :
    KeyedEvent Room → Option HubDoc → Bool → Prop
  | Same (event : KeyedEvent Room) (refused : Bool) :
      Move room key event (room.hub.docs.find key) refused
  | Removed (keys : List KeyedDocKey) : key ∈ keys → Move room key (.Removed keys) none false
  | Produced (payload : Bytes) (frame : Frame protocol) (kind : KeyedDocKind Room) (state : State) :
      Carries protocol payload frame → frame.header.key = key →
      room.hub.kinds.find key.kind = some kind →
      (∀ hubDoc, room.hub.docs.find key = some hubDoc → hubDoc.epoch ≤ frame.header.epoch) →
      Move room key (.RuntimeFrame payload)
        (some (receiveProduced protocol kind (room.hub.rooms key.kind)
          (ensureEpoch room.hub.docs key frame.header.epoch) state frame.message).1) false
  | Untouched (peer : String) (identity : RoomConnectionIdentity) (payload : Bytes)
      (reads : List RecordRead) (kind : KeyedDocKind Room) (epoch : Nat) (refused : Bool) :
      room.hub.kinds.find key.kind = some kind →
      (∀ hubDoc, room.hub.docs.find key = some hubDoc → hubDoc.epoch ≤ epoch) →
      Move room key (.PeerFrame peer identity payload reads)
        (some (ensureEpoch room.hub.docs key epoch)) refused
  | Answered (peer : String) (identity : RoomConnectionIdentity) (payload : Bytes)
      (reads : List RecordRead) (kind : KeyedDocKind Room) (read : RecordRead) (hubDoc : HubDoc)
      (header : KeyedDocFrameHeader) (body : Bytes) (state : State) :
      tryParse payload = .ok (header, body) → header.key = key →
      room.hub.kinds.find key.kind = some kind → read ∈ reads →
      room.hub.docs.find key = some hubDoc → hubDoc.ready = true →
      Move room key (.PeerFrame peer identity payload reads)
        (some { hubDoc with doc := (admitPeerMessage protocol actors kind
          (room.hub.rooms key.kind) hubDoc.doc state body header.epoch
          ⟨writeScope identity.scope, hubDoc.epoch⟩ read.record identity).doc })
        (admitPeerMessage protocol actors kind
          (room.hub.rooms key.kind) hubDoc.doc state body header.epoch
          ⟨writeScope identity.scope, hubDoc.epoch⟩ read.record identity).refused

variable {protocol actors} (encodeHeader : KeyedDocFrameHeader → Bytes)
  (room : KeyedRoom State Room) (key : KeyedDocKey)

theorem admitFrame_some {hub : KeyedDocHub Room} {payload body : Bytes}
    (ha : hub.admitFrame payload = some (header, body, kind)) :
    tryParse payload = .ok (header, body) ∧ hub.kinds.find header.kind = some kind := by
  unfold KeyedDocHub.admitFrame at ha
  split at ha
  · cases ha
  · rename_i found rest hp
    obtain ⟨_, hk, he⟩ := Option.map_eq_some_iff.mp ha
    obtain ⟨rfl, rfl, rfl⟩ := he
    unfold KeyedDocHub.kind at hk
    rw [Option.ite_none_right_eq_some] at hk
    exact ⟨hp, hk.2⟩

theorem checkFrameEpoch_ok {ctx : KeyedWriteContext} (hc : ctx.checkFrameEpoch epoch = .ok ()) :
    ctx.currentEpoch ≤ epoch ∧ (ctx.scope ≠ .RuntimePeer → epoch = ctx.currentEpoch) := by
  unfold KeyedWriteContext.checkFrameEpoch at hc
  obtain ⟨scope, current⟩ := ctx
  cases scope with
  | RuntimePeer => simpa using hc
  | _ =>
    have he : epoch = current := by simpa using hc
    exact ⟨he.ge, fun _ => he⟩

theorem move_runtimeFrame (payload : Bytes) : Move protocol actors room key (.RuntimeFrame payload)
      ((receiveRuntimeFrame protocol encodeHeader room.hub room.runtime payload).hub.docs.find key)
      false := by
  unfold receiveRuntimeFrame
  split
  · exact .Same _ _
  · rename_i header body kind ha
    obtain ⟨hp, hkind⟩ := admitFrame_some ha
    split
    · exact .Same _ _
    · split
      · exact .Same _ _
      · rename_i message hd
        dsimp only
        split
        · exact .Same _ _
        · rename_i he
          unfold commitProduced
          rw [Table.find_set]
          by_cases hk : key = header.key
          · subst hk
            rw [if_pos rfl]
            refine .Produced payload ⟨header, message⟩ kind _ ⟨body, hp, hd⟩ rfl hkind ?_
            intro hubDoc hf
            have hle := (checkFrameEpoch_ok he).1
            simpa [hf] using hle
          · rw [if_neg hk]
            exact .Same _ _

theorem currentEpoch_le (hc : currentEpoch hub key record = some current) :
    ∀ hubDoc, hub.docs.find key = some hubDoc → hubDoc.epoch ≤ current := by
  intro hubDoc hf
  unfold currentEpoch at hc
  rw [hf] at hc
  cases record with
  | none => exact (Option.some.inj hc).le
  | some =>
    rw [← Option.some.inj hc]
    exact le_max_left _ _

theorem settlePeer_spec (hub : KeyedDocHub Room) (states : KeyedSyncStates State) (current : Nat)
    (hubDoc : HubDoc) (admission : Admission State Message) :
    let effect := settlePeer protocol encodeHeader hub states key current hubDoc admission
    effect.hub.docs = hub.docs.set key { hubDoc with doc := admission.doc } ∧
      effect.reply.resync.isSome = admission.refused := by
  obtain ⟨_, _, result⟩ := admission
  cases result with
  | error => exact ⟨rfl, rfl⟩
  | ok request =>
    cases request with
    | none | some => exact ⟨rfl, rfl⟩

theorem move_peerFrame (peer : String) (identity : RoomConnectionIdentity) (payload : Bytes)
    (reads : List RecordRead) :
    Move protocol actors room key (.PeerFrame peer identity payload reads)
      ((peerEffect protocol actors encodeHeader room peer identity payload reads).hub.docs.find key)
      (peerEffect protocol actors encodeHeader room peer identity payload
        reads).reply.resync.isSome := by
  unfold peerEffect receivePeerFrame
  split
  · exact .Same _ _
  · rename_i header body kind hadmitted
    obtain ⟨hp, hkind⟩ := admitFrame_some hadmitted
    split
    · exact .Same _ _
    · rename_i read hread
      have hread : read ∈ reads := List.mem_of_mem_take (List.mem_of_find?_eq_some hread)
      split
      · exact .Same _ _
      · rename_i current hc
        have hle := currentEpoch_le header.key hc
        unfold answerPeer
        by_cases hr : (ensureEpoch room.hub.docs header.key current).ready = false
        · rw [if_pos hr, Table.find_set]
          by_cases hk : key = header.key
          · subst hk
            rw [if_pos rfl]
            exact .Untouched peer identity payload reads kind current _ hkind hle
          · rw [if_neg hk]
            exact .Same _ _
        · rw [if_neg hr]
          have hr : (ensureEpoch room.hub.docs header.key current).ready = true := by
            simpa using hr
          have hf := ensureEpoch_ready hr
          have he := ensureEpoch_epoch hle
          obtain ⟨hd, hrefused⟩ := settlePeer_spec encodeHeader header.key room.hub
            (room.peers peer) current (ensureEpoch room.hub.docs header.key current)
            (admitSized protocol actors kind (room.hub.rooms header.key.kind)
              (ensureEpoch room.hub.docs header.key current).doc
              (KeyedSyncStates.forEpoch protocol.new (room.peers peer) header.key current) body
              header.epoch ⟨writeScope identity.scope, current⟩ read.record identity)
          rw [hd, hrefused, Table.find_set]
          by_cases hk : key = header.key
          · subst hk
            rw [if_pos rfl]
            unfold admitSized
            cases hs : checkBodySize kind body with
            | error =>
              exact .Untouched peer identity payload reads kind current _ hkind hle
            | ok =>
              have ha : Move protocol actors room header.key
                  (.PeerFrame peer identity payload reads) _ _ :=
                .Answered peer identity payload reads kind read
                  (ensureEpoch room.hub.docs header.key current) header body
                  (KeyedSyncStates.forEpoch protocol.new (room.peers peer) header.key current)
                  hp rfl hkind hread hf hr
              simp only [he] at ha ⊢
              exact ha
          · rw [if_neg hk]
            exact .Same _ _

theorem find_removeDocs (hub : KeyedDocHub Room) (keys : List KeyedDocKey) :
    (hub.removeDocs keys).docs.find key = if key ∈ keys then none else hub.docs.find key := by
  unfold KeyedDocHub.removeDocs
  generalize hub.docs = docs
  induction keys generalizing docs with
  | nil => rfl
  | cons first keys ih =>
    rw [List.foldl_cons, ih, Table.find_remove]
    by_cases hm : key ∈ keys
    · simp [hm]
    · by_cases he : key = first <;> simp [he]

theorem step_move (event : KeyedEvent Room)
    (hf : (room.step protocol actors encodeHeader event).hub.docs.find key = after) :
    Move protocol actors room key event after
      (room.refuses protocol actors encodeHeader event) := by
  subst hf
  cases event with
  | RuntimeFrame payload => exact move_runtimeFrame encodeHeader room key payload
  | PeerFrame peer identity payload reads =>
    exact move_peerFrame encodeHeader room key peer identity payload reads
  | RuntimeUpdate =>
    unfold KeyedRoom.step
    dsimp only
    split <;> exact .Same _ _
  | PeerUpdate =>
    unfold KeyedRoom.step
    dsimp only
    split
    · exact .Same _ _
    · split <;> exact .Same _ _
  | Removed keys =>
    have hfind := find_removeDocs key room.hub keys
    unfold KeyedRoom.step
    rw [hfind]
    split
    · exact .Removed keys ‹_›
    · exact .Same _ _
  | _ => exact .Same _ _

theorem step_kinds (event : KeyedEvent Room) :
    (room.step protocol actors encodeHeader event).hub.kinds = room.hub.kinds := by
  cases event with
  | RuntimeFrame =>
    unfold KeyedRoom.step receiveRuntimeFrame
    dsimp only
    split
    · rfl
    · split
      · rfl
      · split
        · rfl
        · split <;> rfl
  | PeerFrame =>
    unfold KeyedRoom.step peerEffect receivePeerFrame
    dsimp only
    split
    · rfl
    · split
      · rfl
      · split
        · rfl
        · unfold answerPeer settlePeer
          dsimp only
          split
          · rfl
          · split <;> rfl
  | RuntimeUpdate =>
    unfold KeyedRoom.step
    dsimp only
    split <;> rfl
  | PeerUpdate =>
    unfold KeyedRoom.step
    dsimp only
    split
    · rfl
    · split <;> rfl
  | _ => rfl

end Moves

-- Only a message whose advertised heads are all there promotes a replica.
theorem receiveProduced_cases (kind : KeyedDocKind Room) (room : Room) (hubDoc : HubDoc)
    (state : State) (message : Message)
    (protocol : KeyedSyncProtocol automerge State Message) :
    let received := { hubDoc with doc := (protocol.receive hubDoc.doc state message).document }
    (receiveProduced protocol kind room hubDoc state message).1 = received ∨
      (receiveProduced protocol kind room hubDoc state message).1 = received.promote ∧
        hubDoc.ready = false ∧
        (∀ head ∈ protocol.heads message, automerge.getChangeByHash received.doc head = true) ∧
        automerge.getMissingDeps received.doc [] = [] := by
  intro received
  unfold receiveProduced
  dsimp only
  cases hr : (protocol.receive hubDoc.doc state message).result with
  | error =>
    left
    have hi : isComplete protocol received protocol.new = false := by
      unfold isComplete
      rw [protocol.theirHeads_new]
    rw [if_neg]
    simp only [received] at hi
    simp [hi]
  | ok =>
    by_cases hc : (!hubDoc.ready && isComplete protocol received
        (protocol.receive hubDoc.doc state message).state &&
        kind.isRuntimeSnapshotReady room received.epoch received.doc) = true
    · right
      have hp := hc
      simp only [Bool.and_eq_true, Bool.not_eq_eq_eq_not] at hc
      obtain ⟨⟨hready, ha⟩, -⟩ := hc
      unfold isComplete at ha
      rw [protocol.theirHeads_receive _ _ _ hr] at ha
      simp only [Bool.and_eq_true, List.all_eq_true, List.isEmpty_iff] at ha
      exact ⟨congrArg Prod.fst (if_pos hp), hready, ha.1, ha.2⟩
    · left
      exact congrArg Prod.fst (if_neg hc)

variable (protocol : KeyedSyncProtocol automerge State Message) (actors : ChangeActors)

structure Passed (kind : KeyedDocKind Room) (room : Room) (doc : Document) (message : Message)
    (ctx : KeyedWriteContext) (record : Option KeyedDocRecord) (identity : RoomConnectionIdentity)
    (change : ChangeHash) : Prop where
  arrived : change ∈ protocol.changes message
  owned : Belongs identity (actors.actorLabel change) ∨
    LegacyLabel identity (actors.actorLabel change)
  validated : ∃ newChanges, change ∈ newChanges ∧
    kind.validatePeerChanges room doc newChanges ctx = .ok ()
  accepting : ∃ stored, record = some stored ∧ stored.acceptsPeerWrites = true

variable {protocol actors} {kind : KeyedDocKind Room} {ctx : KeyedWriteContext}

theorem checkChangeActors_ok (hc : checkChangeActors actors identity changes = .ok ()) :
    ∀ change ∈ changes, Belongs identity (actors.actorLabel change) ∨
      LegacyLabel identity (actors.actorLabel change) := by
  induction changes with
  | nil => simp
  | cons first _ ih =>
    unfold checkChangeActors at hc
    cases hv : validateActorLabel identity (actors.actorLabel first) with
    | error =>
      rw [hv] at hc
      cases hc
    | ok =>
      rw [hv] at hc
      rw [List.forall_mem_cons]
      exact ⟨validateActorLabel_ok hv, ih hc⟩

theorem admitReceived_doc (hc : protocol.changes message = ∅) (refused : Option KeyedDocRejection) :
    (admitReceived protocol doc state message refused).doc = doc := by
  have hs : (protocol.receive doc state message).document = doc := by
    refine Subset.antisymm ?_ (protocol.receive_grows doc state message)
    have ha := protocol.receive_adds doc state message
    rw [hc, union_empty] at ha
    exact ha
  unfold admitReceived
  dsimp only
  split <;> exact hs

-- The preview waits for nothing: all changes are applied, the new ones checked.
theorem admitValidated_adds
    (hm : change ∈ (admitValidated protocol actors kind room doc state message ctx identity).doc) :
    change ∈ doc ∨
      (admitValidated protocol actors kind room doc state message ctx identity).refused = false ∧
      change ∈ protocol.changes message ∧
      (Belongs identity (actors.actorLabel change) ∨
        LegacyLabel identity (actors.actorLabel change)) ∧
      ∃ newChanges, change ∈ newChanges ∧
        kind.validatePeerChanges room doc newChanges ctx = .ok () := by
  unfold admitValidated at hm ⊢
  dsimp only at hm ⊢
  split at hm
  · exact .inl hm
  · split at hm
    · exact .inl hm
    · rename_i hmissing
      split at hm
      · exact .inl hm
      · rename_i ha
        split at hm
        · exact .inl hm
        · rename_i hv
          by_cases ho : change ∈ doc
          · exact .inl ho
          · right
            have hc := (Automerge.getMissingDeps_eq_nil protocol.acyclic).mp (not_not.mp hmissing)
            have hn : change ∈ getChangesSince automerge doc
                (receiveRecovering protocol.toSyncProtocol doc state message).document := by
              unfold getChangesSince
              rw [mem_sortedList, mem_sdiff, hc]
              exact ⟨hm, fun h => ho (Automerge.getChanges_subset doc h)⟩
            have hadds := (receiveRecovering_bounds protocol.toSyncProtocol doc state message).2 hm
            refine ⟨?_, (mem_union.mp hadds).resolve_left ho,
              checkChangeActors_ok ha change hn, _, hn, hv⟩
            rw [if_neg hmissing]
            rfl

theorem admitReceived_adds (hm : change ∈ (admitReceived protocol doc state message refused).doc) :
    change ∈ doc ∨ change ∈ protocol.changes message := by
  have hd : (admitReceived protocol doc state message refused).doc =
      (protocol.receive doc state message).document := by
    unfold admitReceived
    dsimp only
    split <;> rfl
  rw [hd] at hm
  exact mem_union.mp (protocol.receive_adds doc state message hm)

-- A change comes from the message of a frame with an epoch that is not stale.
theorem admitPeerMessage_adds
    (hm : change ∈ (admitPeerMessage protocol actors kind room doc state body frameEpoch ctx record
      identity).doc) :
    change ∈ doc ∨ ctx.checkFrameEpoch frameEpoch = .ok () ∧
      ∃ message, protocol.decode body = .ok message ∧ change ∈ protocol.changes message := by
  unfold admitPeerMessage at hm
  split at hm
  · exact .inl hm
  · rename_i he
    split at hm
    · exact .inl hm
    · rename_i message hd
      refine Or.imp_right (fun h => ⟨he, message, hd, h⟩) ?_
      split at hm
      · exact admitReceived_adds hm
      · split at hm
        · rw [admitReceived_doc (protocol.changes_withoutChanges message)] at hm
          exact .inl hm
        · exact admitReceived_adds hm
        · exact (admitValidated_adds hm).imp_right fun h => h.2.1

theorem admitPeerMessage_grows :
    doc ⊆ (admitPeerMessage protocol actors kind room doc state body frameEpoch ctx record
      identity).doc := by
  have hr : ∀ message refused, doc ⊆ (admitReceived protocol doc state message refused).doc := by
    intro message refused
    have hg := protocol.receive_grows doc state message
    unfold admitReceived
    dsimp only
    split <;> exact hg
  unfold admitPeerMessage
  split
  · exact Subset.refl _
  · split
    · exact Subset.refl _
    · split
      · exact hr _ _
      · split
        · exact hr _ _
        · exact hr _ _
        · rename_i message _ _ _ _
          have hg := (receiveRecovering_bounds protocol.toSyncProtocol doc state message).1
          unfold admitValidated
          dsimp only
          split
          · exact Subset.refl _
          · split
            · exact Subset.refl _
            · split
              · exact Subset.refl _
              · split
                · exact Subset.refl _
                · exact hg

theorem validated_of_scope (hs : ctx.scope ≠ .RuntimePeer)
    (hp : defaultWritePermission kind.kind ctx.scope record = .ok permission) :
    permission = .Validated ∧ ∃ stored, record = some stored ∧ stored.acceptsPeerWrites = true := by
  unfold defaultWritePermission at hp
  split at hp
  · exact absurd ‹_› hs
  · cases hp
  all_goals
    split at hp
    · rename_i stored
      split at hp
      · exact ⟨(Except.ok.inj hp).symm, stored, rfl, ‹_›⟩
      · cases hp
    · cases hp

theorem admitPeerMessage_passed (hs : ctx.scope ≠ .RuntimePeer)
    (hm : change ∈ (admitPeerMessage protocol actors kind room doc state body frameEpoch ctx record
      identity).doc) :
    change ∈ doc ∨ (admitPeerMessage protocol actors kind room doc state body frameEpoch ctx record
        identity).refused = false ∧
      ∃ message, protocol.decode body = .ok message ∧
        Passed protocol actors kind room doc message ctx record identity change := by
  unfold admitPeerMessage at hm ⊢
  split at hm
  · exact .inl hm
  · split at hm
    · exact .inl hm
    · rename_i message hd
      split at hm
      · rename_i hn
        rw [admitReceived_doc hn] at hm
        exact .inl hm
      · rename_i hsome
        split at hm
        · rw [admitReceived_doc (protocol.changes_withoutChanges message)] at hm
          exact .inl hm
        · rename_i hp
          cases (validated_of_scope hs hp).1
        · rename_i hp
          obtain ⟨-, ha⟩ := validated_of_scope hs hp
          obtain hold | ⟨hr, harrived, ho, hv⟩ := admitValidated_adds hm
          · exact .inl hold
          · refine .inr ⟨?_, message, hd, harrived, ho, hv, ha⟩
            rw [if_neg hsome]
            exact hr

end Nteract.KeyedDoc
