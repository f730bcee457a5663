import Nteract.BlobUpload.Sessions

namespace Nteract.BlobUpload

open Lib BlobStore Option Function

open BlobStore (Bytes Hash Store Slot)

open Lib.Transition (Run Guarded)

variable {digest : Bytes → Hash} {peer : Peer} {store : Store} {event : Event}
  {response : Option Response} {before after : System}

-- A blob and a sidecar are under the hash, the digest of the bytes.
def Stands (digest : Bytes → Hash) (store : Store) (hash : Hash) (bytes : Bytes) : Prop :=
  BlobStore.validateHash hash = true ∧ digest bytes = hash ∧
    (store.disk hash).blob.isSome ∧ (store.disk hash).record.isSome

theorem perform_store (hs : peer.perform digest store event = some (next, later, response)) :
    later = store ∨ ∃ put hash, put.Puts digest hash ∧ later = (store.perform digest put).1 := by
  cases event <;> dsimp only [Peer.perform] at hs
  case Put mediaType size sha256 durability body now fault =>
    split_ifs at hs
    · cases hs
      exact .inl rfl
    · cases hs
      exact .inl rfl
    · cases hs
      exact .inl rfl
    · refine .inr ⟨.Put body mediaType (durability.getD .Durable) none now fault, digest body, by rfl, ?_⟩
      split at hs <;> rename_i hp <;> cases hs <;> exact (congrArg Prod.fst hp).symm
  case StoreParts now fault =>
    split at hs
    · split at hs <;> cases hs
      rename_i completion _ _ _ hash _ _
      exact .inr ⟨peer.storeEvent completion hash now fault, hash, rfl, rfl⟩
    · cases hs
  all_goals
    repeat' split at hs
    all_goals first
      | cases hs
        exact .inl rfl
      | cases hs
      | obtain ⟨_, _, hs⟩ := map_eq_some_iff.mp hs
        cases hs
        exact .inl rfl

theorem stands_put {hash : Hash} (hp : put.Puts digest hash)
    (hstands : Stands digest store other bytes) :
    Stands digest (store.perform digest put).1 other bytes := by
  obtain ⟨hv, hd, hb, hr⟩ := hstands
  have hs : BlobStore.SlotStep digest other (store.disk other) put _ _ :=
    perform_slot store put other
  refine ⟨hv, hd, ?_⟩
  generalize (store.perform digest put).1.disk other = slot at hs ⊢
  generalize (store.perform digest put).2 = reply at hs
  cases hs with
  | Untouched => exact ⟨hb, hr⟩
  | Refused _ _ hk => exact ⟨hk hr hb, hr⟩
  | Stored => exact ⟨rfl, rfl⟩
  | Torn _ hremoves | Removed _ hremoves => cases put <;> first | exact absurd hremoves id | exact absurd hp id
  | Lapsed => cases hp

structure System.Sound (digest : Bytes → Hash) (system : System) : Prop where
  store : system.store.Addressed digest
  peers : ∀ id, (system.peers id).Consistent digest (Stands digest system.store)

-- The files of the parts are there and together have the hash.
def Peer.PartsHash (digest : Bytes → Hash) (peer : Peer) (completion : Completion) (hash : Hash) :
    Prop :=
  ∃ parts, peer.readParts completion.plan.partPaths = some parts ∧ digest parts.flatten = hash

-- The hash that an upload names is that of its parts or not held, and a sidecar can be written or
-- the blob is removed with it.
def Checked (digest : Bytes → Hash) (before : System) : SystemEvent → Prop
  | .Peer id (.StoreParts _ fault) => ∀ completion hash,
      (before.peers id).completing = some completion → completion.finalHash = some hash →
      (completion.plan.expectedSha256 = none ∨
        (before.peers id).PartsHash digest completion hash ∨
        (before.store.disk hash).blob = none ∨ (before.store.disk hash).record = none) ∧
      (fault.record = true → (before.store.disk hash).record.isSome ∨ fault.blob = true ∨
        (before.store.disk hash).blob = none ∧ fault.cleanup = false)
  | _ => True

theorem prime_disk (store : Store) (update : BlobStore.Update) :
    (store.perform digest (.Prime update)).1.disk = store.disk := by
  unfold Store.perform
  dsimp only
  split <;> rfl

theorem stands_checked {hash : Hash} (hp : Planned digest fact peer completion bodies)
    (hf : completion.finalHash = some hash)
    (hc : completion.plan.expectedSha256 = none ∨ peer.PartsHash digest completion hash ∨
      (store.disk hash).blob = none ∨ (store.disk hash).record = none)
    (hok : storeResult (store.perform digest (peer.storeEvent completion hash now fault)).2 = .ok
      found) :
    Stands digest (store.perform digest (peer.storeEvent completion hash now fault)).1 found
      bodies.flatten := by
  have hr : (store.perform digest (peer.storeEvent completion hash now fault)).2 =
      .Stored found := by
    generalize (store.perform digest (peer.storeEvent completion hash now fault)).2 = reply at hok
    cases reply <;> cases hok
    rfl
  rw [Peer.storeEvent, storeResult_perform] at hok
  obtain ⟨rfl, hv, hparts⟩ := putParts_ok hok
  have hslot : BlobStore.SlotStep digest found (store.disk found)
      (peer.storeEvent completion found now fault) _ _ := perform_slot store _ found
  rw [hr] at hslot
  obtain ⟨_, _, hdisk, -⟩ := stored_step (by rfl) hslot
  refine ⟨hv, ?_, by rw [hdisk]; rfl, by rw [hdisk]; rfl⟩
  rcases hc with hn | ⟨_, hread, hd⟩ | ha
  · exact hp.hashed hn found hf
  · rw [hp.paths] at hread
    rw [← readParts_backed hp.backed hread]
    exact hd
  · obtain ⟨hread, hd⟩ := hparts ha
    cases hs : peer.readParts completion.plan.partPaths with
    | none => simp [hs] at hread
    | some =>
      rw [hs] at hd
      rw [hp.paths] at hs
      rw [← readParts_backed hp.backed hs]
      exact hd

theorem sound_step {event : SystemEvent} (hs : before.Sound digest)
    (hstep : Guarded (Performs digest) (Checked digest) before event after) : after.Sound digest := by
  obtain ⟨hc, _, hstep⟩ := hstep
  cases event with
  | Prime =>
    cases hstep
    refine ⟨addressed_step hs.store rfl, fun id => (hs.peers id).mono ?_⟩
    rintro hash bytes ⟨hv, hd, hslot⟩
    exact ⟨hv, hd, by rw [prime_disk]; exact hslot⟩
  | Peer id =>
    obtain ⟨⟨_, later, _⟩, hp, hstep⟩ := map_eq_some_iff.mp hstep
    cases hstep
    have hstore : later.Addressed digest ∧ ∀ hash bytes, Stands digest before.store hash bytes →
        Stands digest later hash bytes := by
      rcases perform_store hp with rfl | ⟨_, hash, hput, rfl⟩
      · exact ⟨hs.store, fun _ _ h => h⟩
      · exact ⟨addressed_step hs.store rfl, fun _ _ => stands_put hput⟩
    refine ⟨hstore.1, fun other => ?_⟩
    have hk := (hs.peers other).mono hstore.2
    by_cases ho : other = id
    · subst ho
      dsimp only
      rw [update_self]
      refine consistent_perform hk ?_ hp
      rintro now fault rfl completion hash _ hsome hf hplan _ hok
      have hl : later = (before.store.perform digest
          ((before.peers other).storeEvent completion hash now fault)).1 := by
        dsimp only [Peer.perform] at hp
        rw [hsome] at hp
        dsimp only at hp
        rw [hf] at hp
        cases hstored : completion.stored <;> rw [hstored] at hp <;> cases hp
        rfl
      rw [hl]
      exact stands_checked hplan hf (hc completion hash hsome hf).1 hok
    · dsimp only
      rw [update_of_ne ho]
      exact hk

theorem consistent_step {event : SystemEvent}
    (hp : ∀ id, (before.peers id).Consistent digest fun _ _ => True)
    (hs : Performs digest before event after) (id : Nat) :
    (after.peers id).Consistent digest fun _ _ => True := by
  obtain ⟨_, hs⟩ := hs
  cases event with
  | Prime =>
    cases hs
    exact hp id
  | Peer other =>
    obtain ⟨⟨_, _, _⟩, hpeer, hs⟩ := map_eq_some_iff.mp hs
    cases hs
    by_cases hid : id = other
    · subst hid
      dsimp only
      rw [update_self]
      exact consistent_perform (hp id) (fun _ _ _ _ _ _ _ _ _ _ _ => trivial) hpeer
    · dsimp only
      rw [update_of_ne hid]
      exact hp id

theorem answer_stored {id : Nat} {hash : Hash}
    (hsome : (before.peers id).completing = some completion)
    (ha : before.perform digest (.Peer id .Answer) = some (after, some (.BlobStored hash size
      mediaType))) :
    completion.stored = some (.ok hash) ∧ size = completion.plan.expectedSize ∧
      mediaType = completion.plan.mediaType ∧ after.store = before.store := by
  obtain ⟨⟨_, _, _⟩, hp, hs⟩ := map_eq_some_iff.mp ha
  dsimp only [Peer.perform] at hp
  rw [hsome] at hp
  obtain ⟨result, hr, hp⟩ := map_eq_some_iff.mp hp
  cases hp
  cases result with
  | error => cases hs
  | ok =>
    cases hs
    exact ⟨hr, rfl, rfl, rfl⟩

def Stores (after : System) : SystemEvent → Prop
  | .Peer _ (.Put ..) => True
  | .Peer id (.StoreParts ..) => ∃ completion hash,
      (after.peers id).completing = some completion ∧ completion.stored = some (.ok hash)
  | .Prime _ => True
  | _ => False

theorem putParts_store (store : Store) (parts : List Bytes) (mediaType : String) (size : Nat)
    (hash : Hash) (durability : BlobStore.Durability) (now : Nat) (fault : BlobStore.Fault) :
    (store.perform digest (.PutParts parts mediaType size hash durability now fault)).1 =
      store.setSlot hash (BlobStore.putPartFilesWithHash digest (store.disk hash) parts mediaType
        size hash durability now fault).1 := by
  unfold Store.perform
  dsimp only
  split <;> rename_i hp <;> rw [hp]

theorem store_unchanged {event : SystemEvent} (hc : Checked digest before event)
    (hs : Performs digest before event after) (hstores : ¬Stores after event) :
    after.store = before.store := by
  obtain ⟨_, hs⟩ := hs
  cases event with
  | Prime => exact absurd trivial hstores
  | Peer id event =>
    obtain ⟨⟨_, _, _⟩, hp, hs⟩ := map_eq_some_iff.mp hs
    cases hs
    cases event <;> dsimp only [Peer.perform] at hp
    case Put => exact absurd trivial hstores
    case StoreParts now fault =>
      split at hp
      · rename_i completion hsome
        split at hp <;> cases hp
        rename_i hash hf _
        cases hr : storeResult (before.store.perform digest
            ((before.peers id).storeEvent completion hash now fault)).2 with
        | ok found =>
          refine absurd ⟨{ completion with stored := some (.ok found) }, found, ?_, rfl⟩ hstores
          dsimp only
          rw [update_self, hr]
        | error message =>
          rw [Peer.storeEvent, storeResult_perform] at hr
          have hslot := putParts_error hr (hc completion hash hsome hf).2
          refine (putParts_store ..).trans ?_
          rw [hslot, Store.setSlot, update_eq_self]
      · cases hp
    all_goals
      repeat' split at hp
      all_goals first
        | obtain ⟨_, _, hp⟩ := map_eq_some_iff.mp hp
          cases hp
          rfl
        | cases hp
          try rfl

-- Stored are the acknowledged parts in the order of the request. A store that has compared them
-- with the hash returns them.
theorem uploads_intact (digest : Bytes → Hash) (budgetBytes ttl : Nat) (store : Store)
    (hstore : store.Addressed digest) :
    let first : System := ⟨fun _ => .new budgetBytes ttl, store⟩
    (∀ events before id completion after hash size mediaType,
      Run (Performs digest) first events before →
      (before.peers id).completing = some completion →
      before.perform digest (.Peer id .Answer) =
        some (after, some (.BlobStored hash size mediaType)) →
      ∃ bodies, List.Forall₂ (fun (part : BlobUploadPart) body => digest body = part.sha256 ∧
          body.length = part.size ∧ ⟨completion.plan.uploadId, part.partNumber, body⟩ ∈
            (before.peers id).acknowledged) completion.manifest bodies ∧
        bodies.flatten.length = size ∧
        (Run (Guarded (Performs digest) (Checked digest)) first events before →
          digest bodies.flatten = hash ∧
          ((∀ held, after.store.get hash = some held → digest held = digest bodies.flatten →
            held = bodies.flatten) → after.store.get hash = some bodies.flatten))) ∧
    ∀ events before event after, Run (Guarded (Performs digest) (Checked digest)) first events before →
      Guarded (Performs digest) (Checked digest) before event after → ¬Stores after event →
      after.store = before.store := by
  intro first
  refine ⟨?_, ?_⟩
  · intro events before id completion after hash size mediaType hrun hsome hanswer
    obtain ⟨hstored, rfl, -, hsame⟩ := answer_stored hsome hanswer
    have hacknowledged : ∀ {fact bodies}, Planned digest fact (before.peers id) completion bodies →
        List.Forall₂ (fun part body => digest body = part.sha256 ∧ body.length = part.size ∧
          ⟨completion.plan.uploadId, part.partNumber, body⟩ ∈ (before.peers id).acknowledged)
          completion.manifest bodies := fun hplan =>
      hplan.backed.imp fun _ _ h => ⟨h.sha256, h.size, h.acknowledged⟩
    by_cases hguarded : Run (Guarded (Performs digest) (Checked digest)) first events before
    · have hsound : before.Sound digest :=
        hguarded.invariant (fun system => system.Sound digest) (fun _ _ _ => sound_step)
          ⟨hstore, fun _ => consistent_new budgetBytes ttl⟩
      obtain ⟨bodies, hplan⟩ := (hsound.peers id).completing completion hsome
      obtain ⟨-, hvalid, hdigest, hblob, -⟩ := hplan.stored hash hstored
      refine ⟨bodies, hacknowledged hplan, hplan.size, fun _ => ⟨hdigest, fun hunique => ?_⟩⟩
      obtain ⟨held, hheld⟩ : ∃ held, after.store.get hash = some held := by
        rw [hsame, Store.get, if_pos hvalid]
        split
        · exact ⟨_, rfl⟩
        · exact isSome_iff_exists.mp hblob
      have hfits : digest held = hash := digest_of_get hsound.store (hsame ▸ hheld)
      rw [hheld, hunique held hheld (hfits.trans hdigest.symm)]
    · have hpeers : ∀ id, (before.peers id).Consistent digest fun _ _ => True :=
        hrun.invariant (fun system => ∀ id, (system.peers id).Consistent digest fun _ _ => True)
          (fun _ _ _ hpeers hstep => consistent_step hpeers hstep)
          fun _ => consistent_new budgetBytes ttl
      obtain ⟨bodies, hplan⟩ := (hpeers id).completing completion hsome
      exact ⟨bodies, hacknowledged hplan, hplan.size, fun h => absurd h hguarded⟩
  · intro events before event after _ hstep hstores
    exact store_unchanged hstep.1 hstep.2 hstores

def System.performAll (digest : Bytes → Hash) (system : System) (events : List SystemEvent) :
    Option System :=
  Lib.Transition.follow (fun system event => (system.perform digest event).map Prod.fst) system
    events

theorem run_performAll (hall : before.performAll digest events = some after) :
    Run (Performs digest) before events after :=
  (Run.of_follow hall).mono fun _ _ _ hs =>
    let ⟨result, hr, ha⟩ := map_eq_some_iff.mp hs
    ⟨result.2, by rw [hr, ← ha]⟩

def partDigest (bytes : Bytes) : Hash :=
  String.ofList (List.replicate 64 (if bytes = [1] then '1' else if bytes = [2] then '2' else '3'))

-- The store holds the content already, and the peer sends it once more.
theorem two_parts_stored :
    let hash := partDigest [2, 1]
    let manifest : List BlobUploadPart := [⟨2, partDigest [2], 1⟩, ⟨1, partDigest [1], 1⟩]
    let first : System := ⟨fun _ => .new MAX_PEER_STAGED_BYTES 3600, .fresh 1024⟩
    let events : List SystemEvent := [.Peer 1 (.Put "text/plain" 2 hash none [2, 1] 0 {}),
      .Peer 0 (.Create "u" "text/plain" 2 (some hash) none 0 false),
      .Peer 0 (.Part "u" 1 1 (partDigest [1]) [1] 0), .Peer 0 (.Write true), .Peer 0 (.Finish false),
      .Peer 0 (.Part "u" 2 1 (partDigest [2]) [2] 0), .Peer 0 (.Write true), .Peer 0 (.Finish false),
      .Peer 0 (.Complete "u" manifest 0)]
    ∃ middle before after, first.performAll partDigest events = some middle ∧
      middle.performAll partDigest [.Peer 0 (.StoreParts 0 {})] = some before ∧
      before.perform partDigest (.Peer 0 .Answer) =
        some (after, some (.BlobStored hash 2 "text/plain")) ∧
      ∃ bodies, List.Forall₂ (fun (part : BlobUploadPart) body => partDigest body = part.sha256 ∧
        body.length = part.size ∧ ⟨"u", part.partNumber, body⟩ ∈ (before.peers 0).acknowledged)
        manifest bodies ∧ bodies.flatten.length = 2 ∧ partDigest bodies.flatten = hash := by
  intro hash manifest first events
  have hfacts : ((first.performAll partDigest events).bind fun middle =>
      (middle.peers 0).completing.bind fun staged =>
        (middle.performAll partDigest [.Peer 0 (.StoreParts 0 {})]).bind fun before =>
          (before.peers 0).completing.bind fun completion =>
            (before.perform partDigest (.Peer 0 .Answer)).map fun result =>
              (decide (staged.finalHash = some hash ∧
                  (middle.peers 0).readParts staged.plan.partPaths = some [[2], [1]]),
                decide (completion.plan.uploadId = "u" ∧ completion.manifest = manifest),
                result.2)) =
      some (true, true, some (.BlobStored hash 2 "text/plain")) := by
    decide +kernel
  obtain ⟨middle, hall, hfacts⟩ := bind_eq_some_iff.mp hfacts
  obtain ⟨staged, hstaged, hfacts⟩ := bind_eq_some_iff.mp hfacts
  obtain ⟨before, hlast, hfacts⟩ := bind_eq_some_iff.mp hfacts
  obtain ⟨completion, hsome, hfacts⟩ := bind_eq_some_iff.mp hfacts
  obtain ⟨⟨after, _⟩, hanswer, hfacts⟩ := map_eq_some_iff.mp hfacts
  obtain ⟨⟨hfinal, hread⟩, ⟨hupload, hmanifest⟩, rfl⟩ := by
    simpa only [Prod.mk.injEq, decide_eq_true_eq] using hfacts
  have hfirst : Run (Guarded (Performs partDigest) (Checked partDigest)) first events middle :=
    (run_performAll hall).guarded (by simp [events, Checked])
  have hchecked : Checked partDigest middle (.Peer 0 (.StoreParts 0 {})) := by
    intro other found hs hf
    obtain rfl := some.inj (hstaged.symm.trans hs)
    obtain rfl := some.inj (hfinal.symm.trans hf)
    exact ⟨.inr (.inl ⟨_, hread, rfl⟩), fun h => absurd h (by decide)⟩
  have hrun : Run (Guarded (Performs partDigest) (Checked partDigest)) first
      (events ++ [.Peer 0 (.StoreParts 0 {})]) before := by
    refine hfirst.append ?_
    cases run_performAll hlast with
    | cons hs hr => cases hr; exact .single ⟨hchecked, hs⟩
  obtain ⟨bodies, hbodies, hsize, hstored⟩ := (uploads_intact partDigest MAX_PEER_STAGED_BYTES 3600
    (.fresh 1024) (addressed_fresh 1024)).1 _ before 0 completion after hash 2 "text/plain"
    hrun.unguarded hsome hanswer
  rw [hupload, hmanifest] at hbodies
  exact ⟨middle, before, after, hall, hlast, hanswer, bodies, hbodies, hsize, (hstored hrun).1⟩

-- Other bytes of the same size pass for a hash that the store holds. A sidecar that cannot be
-- written leaves the bytes of a failed upload.
theorem other_parts_stored_failed_parts_readable :
    let one := "1111111111111111111111111111111111111111111111111111111111111111"
    let two := "2222222222222222222222222222222222222222222222222222222222222222"
    let digest := fun bytes : Bytes => if bytes = [1] then one else two
    let first : System := ⟨fun _ => .new MAX_PEER_STAGED_BYTES 3600, .fresh 1024⟩
    let upload (hash : Hash) (fault : BlobStore.Fault) : List SystemEvent :=
      [.Peer 0 (.Create "u" "text/plain" 1 (some hash) none 0 false),
        .Peer 0 (.Part "u" 1 1 two [2] 0), .Peer 0 (.Write true), .Peer 0 (.Finish false),
        .Peer 0 (.Complete "u" [⟨1, two, 1⟩] 0), .Peer 0 (.StoreParts 0 fault)]
    let answer (events : List SystemEvent) (hash : Hash) :=
      (first.performAll digest events).bind fun before =>
        (before.perform digest (.Peer 0 .Answer)).map fun result =>
          (result.2, result.1.store.get hash)
    answer (.Peer 1 (.Put "text/plain" 1 one none [1] 0 {}) :: upload one {}) one =
        some (some (.BlobStored one 1 "text/plain"), some [1]) ∧
      answer (upload two { record := true, cleanup := true }) two =
        some (some (.BlobUploadError (.Io "metadata write failed")), some [2]) := by
  decide +kernel

end Nteract.BlobUpload
