import Nteract.BlobStore.Theorems
import Nteract.BlobUpload

namespace Nteract.BlobUpload

open Lib List Option Function Table

open BlobStore (Bytes Hash Store Slot)

open Lib.Transition (Run Guarded)

variable {digest : Bytes → Hash} {fact : Hash → Bytes → Prop} {peer after : Peer} {uploadId : UploadId}

-- The bytes of a part were acknowledged, and its file, if there, holds them.
structure Backed (digest : Bytes → Hash) (peer : Peer) (uploadId : UploadId)
    (part : BlobUploadPart) (body : Bytes) : Prop where
  sha256 : digest body = part.sha256
  size : body.length = part.size
  acknowledged : ⟨uploadId, part.partNumber, body⟩ ∈ peer.acknowledged
  file : ∀ bytes, peer.files (uploadId, part.partNumber) = some bytes → bytes = body

structure Staged (digest : Bytes → Hash) (peer : Peer) (uploadId : UploadId)
    (upload : UploadSession) : Prop where
  issued : uploadId ∈ peer.issued
  named : upload.uploadId = uploadId
  parts : ∀ partNumber staged, upload.parts.find partNumber = some staged →
    staged.path = (uploadId, partNumber) ∧
      ∃ body, Backed digest peer uploadId ⟨partNumber, staged.sha256, staged.size⟩ body

structure InFlight (digest : Bytes → Hash) (peer : Peer) (writing : Writing) : Prop where
  issued : writing.uploadId ∈ peer.issued
  path : writing.path = (writing.uploadId, writing.partNumber)
  sha256 : digest writing.body = writing.sha256
  size : writing.body.length = writing.size
  active : ∀ upload, peer.uploads.find writing.uploadId = some upload →
    upload.activePart = true ∧ upload.parts.find writing.partNumber = none ∧
      (writing.written = some true → peer.files writing.path = some writing.body)
  apart : ∀ completion, peer.completing = some completion →
    writing.uploadId ≠ completion.plan.uploadId

-- `fact` is what is known of the parts once the store has accepted them.
structure Planned (digest : Bytes → Hash) (fact : Hash → Bytes → Prop) (peer : Peer) (completion : Completion)
    (bodies : List Bytes) : Prop where
  issued : completion.plan.uploadId ∈ peer.issued
  locked : ∀ upload, peer.uploads.find completion.plan.uploadId = some upload →
    upload.completing = true
  paths : completion.plan.partPaths =
    completion.manifest.map fun part => (completion.plan.uploadId, part.partNumber)
  backed : Forall₂ (Backed digest peer completion.plan.uploadId) completion.manifest bodies
  size : bodies.flatten.length = completion.plan.expectedSize
  hashed : completion.plan.expectedSha256 = none → ∀ hash, completion.finalHash = some hash →
    digest bodies.flatten = hash
  stored : ∀ hash, completion.stored = some (.ok hash) →
    completion.finalHash = some hash ∧ fact hash bodies.flatten

structure Peer.Consistent (digest : Bytes → Hash) (fact : Hash → Bytes → Prop) (peer : Peer) : Prop where
  staged : ∀ uploadId upload, peer.uploads.find uploadId = some upload →
    Staged digest peer uploadId upload
  writing : ∀ writing, peer.writing = some writing → InFlight digest peer writing
  completing : ∀ completion, peer.completing = some completion →
    ∃ bodies, Planned digest fact peer completion bodies

theorem consistent_new (budgetBytes ttl : Nat) :
    (Peer.new budgetBytes ttl).Consistent digest fact :=
  ⟨nofun, nofun, nofun⟩

variable {completion : Completion}

theorem Backed.mono (hb : Backed digest peer uploadId part body)
    (ha : peer.acknowledged ⊆ after.acknowledged)
    (hf : ∀ bytes, after.files (uploadId, part.partNumber) = some bytes → peer.files (uploadId,
      part.partNumber) = some bytes) : Backed digest after uploadId part body :=
  ⟨hb.sha256, hb.size, ha hb.acknowledged, fun bytes h => hb.file bytes (hf bytes h)⟩

structure Extends (peer after : Peer) : Prop where
  issued : peer.issued ⊆ after.issued
  acknowledged : peer.acknowledged ⊆ after.acknowledged
  files : ∀ path bytes, after.files path = some bytes → peer.files path = some bytes

theorem Extends.same (hs : after.issued = peer.issued ∧ after.acknowledged = peer.acknowledged ∧
    after.files = peer.files) : Extends peer after := by
  obtain ⟨hi, ha, hf⟩ := hs
  exact ⟨hi ▸ Subset.refl _, ha ▸ Subset.refl _, fun _ _ => by rw [hf]; exact id⟩

theorem Backed.extends (hb : Backed digest peer uploadId part body)
    (he : Extends peer after) : Backed digest after uploadId part body :=
  hb.mono he.acknowledged (he.files _)

theorem Staged.extends (hs : Staged digest peer uploadId upload) (he : Extends peer after)
    (hn : renewed.uploadId = upload.uploadId) (hp : renewed.parts = upload.parts) :
    Staged digest after uploadId renewed :=
  ⟨he.issued hs.issued, hn.trans hs.named, fun partNumber staged h =>
    (hs.parts partNumber staged (hp ▸ h)).imp_right fun ⟨body, h⟩ => ⟨body, h.extends he⟩⟩

theorem Planned.extends (hp : Planned digest fact peer completion bodies) (he : Extends peer after)
    (hl : ∀ upload, after.uploads.find completion.plan.uploadId = some upload →
      upload.completing = true) : Planned digest fact after completion bodies :=
  { hp with
    issued := he.issued hp.issued
    locked := hl
    backed := hp.backed.imp fun _ _ h => h.extends he }

theorem find_removeUpload (peer : Peer) (uploadId other : UploadId) :
    (peer.removeUpload uploadId).uploads.find other =
      if other = uploadId then none else peer.uploads.find other := by
  unfold Peer.removeUpload
  split
  · exact find_remove ..
  · grind

theorem removeUpload_same (peer : Peer) (uploadId : UploadId) :
    (peer.removeUpload uploadId).issued = peer.issued ∧
      (peer.removeUpload uploadId).acknowledged = peer.acknowledged ∧
      (peer.removeUpload uploadId).files = peer.files ∧
      (peer.removeUpload uploadId).writing = peer.writing ∧
      (peer.removeUpload uploadId).completing = peer.completing := by
  unfold Peer.removeUpload
  split <;> exact ⟨rfl, rfl, rfl, rfl, rfl⟩

theorem checkManifest_backed (hstaged : Staged digest peer uploadId upload)
    (hc : upload.checkManifest manifest seen size paths = some (total, found)) :
    ∃ bodies, Forall₂ (Backed digest peer uploadId) manifest bodies ∧
      total = size + bodies.flatten.length ∧
      found = paths ++ manifest.map fun part => (uploadId, part.partNumber) := by
  induction manifest generalizing seen size paths with
  | nil =>
    cases hc
    exact ⟨[], .nil, rfl, (append_nil _).symm⟩
  | cons part _ ih =>
    unfold UploadSession.checkManifest at hc
    split at hc
    · cases hc
    split at hc
    · cases hc
    rename_i staged hpart
    split at hc
    · cases hc
    rename_i hs
    rw [not_or, not_not, not_not] at hs
    obtain ⟨bodies, hbodies, ht, hf⟩ := ih hc
    obtain ⟨hp, body, hb⟩ := hstaged.parts part.partNumber staged hpart
    rw [hs.1, hs.2] at hb
    refine ⟨body :: bodies, .cons hb hbodies, ?_, ?_⟩
    · rw [ht, hs.2, ← hb.size, flatten_cons, length_append, Nat.add_assoc]
    · rw [hf, hp, append_assoc, map_cons, singleton_append]

theorem readParts_backed (hb : Forall₂ (Backed digest peer uploadId) manifest bodies)
    (hr : peer.readParts (manifest.map fun part => (uploadId, part.partNumber)) = some parts) :
    parts = bodies := by
  unfold Peer.readParts at hr
  induction hb generalizing parts with
  | nil =>
    cases hr
    rfl
  | cons hbacked _ ih =>
    simp only [map_cons, mapM_cons, Option.bind_eq_bind, Option.bind_eq_some_iff,
      Option.pure_def, Option.some.injEq] at hr
    obtain ⟨body, hf, _, hrest, rfl⟩ := hr
    rw [hbacked.file body hf, ih hrest]

section Consistent

variable (hpeer : peer.Consistent digest fact)
include hpeer

-- A step that may take sessions away and leaves the workers alone.
theorem Peer.Consistent.shrink (he : Extends peer after)
    (hu : ∀ uploadId upload, after.uploads.find uploadId = some upload →
      peer.uploads.find uploadId = some upload)
    (hfiles : ∀ writing upload, peer.writing = some writing →
      after.uploads.find writing.uploadId = some upload →
      after.files writing.path = peer.files writing.path)
    (hw : after.writing = peer.writing) (hc : after.completing = peer.completing) :
    after.Consistent digest fact := by
  refine ⟨fun uploadId upload hfind => ?_, fun writing hs => ?_, fun completion hs => ?_⟩
  · exact (hpeer.staged uploadId upload (hu _ _ hfind)).extends he rfl rfl
  · rw [hw] at hs
    have hf := hpeer.writing writing hs
    exact { hf with
      issued := he.issued hf.issued
      active := fun upload h => by
        rw [hfiles writing upload hs h]
        exact hf.active upload (hu _ _ h)
      apart := hc ▸ hf.apart }
  · obtain ⟨bodies, hp⟩ := hpeer.completing completion (hc ▸ hs)
    exact ⟨bodies, hp.extends he fun upload h => hp.locked upload (hu _ _ h)⟩

theorem Peer.Consistent.idle : Peer.Consistent digest fact { peer with completing := none } :=
  ⟨fun uploadId upload h => (hpeer.staged uploadId upload h).extends (.same ⟨rfl, rfl, rfl⟩) rfl rfl,
    fun writing h => { hpeer.writing writing h with apart := nofun }, nofun⟩

theorem Peer.Consistent.acknowledge (partNumber : Nat)
    (body : Bytes) : (peer.acknowledge uploadId partNumber body).Consistent digest fact :=
  hpeer.shrink ⟨Subset.refl _, subset_append_left _ _, fun _ _ => id⟩ (fun _ _ => id)
    (fun _ _ _ _ => rfl) rfl rfl

theorem consistent_removeUpload (uploadId : UploadId) :
    (peer.removeUpload uploadId).Consistent digest fact := by
  have hf : ∀ other upload, (peer.removeUpload uploadId).uploads.find other = some upload →
      peer.uploads.find other = some upload := by
    intro other upload hf
    rw [find_removeUpload] at hf
    split at hf
    · cases hf
    · exact hf
  obtain ⟨hi, ha, hfiles, hw, hc⟩ := removeUpload_same peer uploadId
  exact hpeer.shrink (.same ⟨hi, ha, hfiles⟩) hf (fun _ _ _ _ => by rw [hfiles]) hw hc

theorem consistent_sweepExpired (now : Nat) : (peer.sweepExpired now).Consistent digest fact ∧
      (peer.sweepExpired now).issued = peer.issued ∧
      (peer.sweepExpired now).completing = peer.completing := by
  unfold Peer.sweepExpired
  generalize peer.uploads.entries.filter _ = expired
  induction expired generalizing peer with
  | nil => exact ⟨hpeer, rfl, rfl⟩
  | cons entry _ ih =>
    obtain ⟨hrest, hissued, hcompleting⟩ := ih (consistent_removeUpload hpeer entry.1)
    obtain ⟨hsame, -, -, -, hidle⟩ := removeUpload_same peer entry.1
    exact ⟨hrest, hissued.trans hsame, hcompleting.trans hidle⟩

theorem Peer.Consistent.set (he : Extends peer after)
    (hu : after.uploads = peer.uploads.set uploadId renewed)
    (hn : Staged digest after uploadId renewed)
    (hw : ∀ writing, after.writing = some writing → InFlight digest after writing)
    (hc : ∀ completion, after.completing = some completion → ∃ bodies, Planned digest
      fact after completion bodies) : after.Consistent digest fact := by
  refine ⟨fun other found hf => ?_, hw, hc⟩
  rw [hu, find_set] at hf
  split at hf
  · rename_i ho
    cases hf
    exact ho ▸ hn
  · exact (hpeer.staged other found hf).extends he rfl rfl

theorem Peer.Consistent.planned (he : Extends peer after)
    (hu : after.uploads = peer.uploads.set uploadId renewed)
    (hs : peer.completing = some completion) (ha : uploadId ≠ completion.plan.uploadId) :
    ∃ bodies, Planned digest fact after completion bodies := by
  obtain ⟨bodies, hp⟩ := hpeer.completing completion hs
  refine ⟨bodies, hp.extends he fun found hf => ?_⟩
  rw [hu, find_set, if_neg ha.symm] at hf
  exact hp.locked found hf

theorem consistent_begin (hfind : peer.uploads.find uploadId = some upload)
    (hfree : upload.parts.find partNumber = none) (hunlocked : upload.completing = false)
    (hsize : body.length = size) :
    Peer.Consistent digest fact { peer with
        uploads := peer.uploads.set uploadId { upload with activePart := true }
        writing := some
          ⟨uploadId, partNumber, size, digest body, body, (uploadId, partNumber), none⟩ } := by
  have hapart : ∀ completion, peer.completing = some completion →
      uploadId ≠ completion.plan.uploadId := by
    rintro completion hsome rfl
    obtain ⟨_, hplan⟩ := hpeer.completing completion hsome
    cases hunlocked.symm.trans (hplan.locked upload hfind)
  have hstaged := hpeer.staged uploadId upload hfind
  refine hpeer.set (.same ⟨rfl, rfl, rfl⟩) rfl (hstaged.extends (.same ⟨rfl, rfl, rfl⟩) rfl rfl) ?_
    fun completion hsome => hpeer.planned (.same ⟨rfl, rfl, rfl⟩) rfl hsome (hapart completion hsome)
  rintro _ ⟨rfl⟩
  refine ⟨hstaged.issued, rfl, rfl, hsize, fun next hnext => ?_, hapart⟩
  rw [find_set, if_pos rfl] at hnext
  cases hnext
  exact ⟨rfl, hfree, nofun⟩

theorem consistent_part (partNumber size : Nat) (sha256 : Hash) (body : Bytes) (now : Nat) :
    (peer.part digest uploadId partNumber size sha256 body now).1.Consistent digest fact := by
  unfold Peer.part
  split
  · exact hpeer
  rename_i hs
  split
  · exact hpeer
  rename_i hd
  obtain rfl : digest body = sha256 := not_not.mp hd
  unfold Peer.beginPartUpload
  cases hf : peer.uploads.find uploadId with
  | none => exact hpeer
  | some upload =>
    cases hp : upload.parts.find partNumber with
    | some =>
      simp only [hp]
      split_ifs
      · exact consistent_removeUpload hpeer uploadId
      · exact hpeer
      · exact hpeer
      · exact hpeer.acknowledge partNumber body
      · exact hpeer
    | none =>
      simp only [hp]
      split_ifs with he hb
      · exact consistent_removeUpload hpeer uploadId
      · exact hpeer
      · exact hpeer
      · exact hpeer
      · exact consistent_begin hpeer hf hp (by simp_all) (not_not.mp hs)

theorem consistent_write (hwriting : peer.writing = some writing) (succeeds : Bool) :
    (peer.write writing succeeds).Consistent digest fact := by
  have hf := hpeer.writing writing hwriting
  -- the file that is written is of no staged part
  have hfile : ∀ path bytes, path ≠ writing.path →
      (peer.write writing succeeds).files path = some bytes → peer.files path = some bytes := by
    intro path bytes hp hb
    unfold Peer.write at hb
    dsimp only at hb
    split at hb
    · rwa [update_of_ne hp] at hb
    · exact hb
  refine ⟨fun uploadId upload hfind => ?_, ?_, fun completion hs => ?_⟩
  · obtain ⟨hi, hn, hparts⟩ := hpeer.staged uploadId upload hfind
    refine ⟨hi, hn, fun partNumber staged hpart => ?_⟩
    obtain ⟨hp, body, hbacked⟩ := hparts partNumber staged hpart
    refine ⟨hp, body, hbacked.mono (Subset.refl _) fun bytes => hfile _ bytes ?_⟩
    rw [hf.path]
    rintro ⟨rfl, rfl⟩
    cases hpart.symm.trans (hf.active upload hfind).2.1
  · rintro _ ⟨rfl⟩
    refine { hf with active := fun upload hfind => ?_ }
    obtain ⟨ha, hnone, -⟩ := hf.active upload hfind
    refine ⟨ha, hnone, fun hw => ?_⟩
    obtain rfl : succeeds = true := some.inj hw
    exact update_self ..
  · obtain ⟨bodies, hplan⟩ := hpeer.completing completion hs
    refine ⟨bodies, { hplan with backed := hplan.backed.imp fun part body hbacked => ?_ }⟩
    refine hbacked.mono (Subset.refl _) fun bytes => hfile _ bytes ?_
    rw [hf.path]
    intro hp
    exact hf.apart completion hs (Prod.mk.inj hp).1.symm

theorem consistent_finish (hw : peer.writing = some writing)
    (hwritten : writing.written = some succeeded) (removed : Bool) :
    (peer.finish writing succeeded removed).1.Consistent digest fact := by
  have hf := hpeer.writing writing hw
  have hi : Peer.Consistent digest fact { peer with writing := none } :=
    ⟨fun uploadId upload h => (hpeer.staged uploadId upload h).extends (.same ⟨rfl, rfl, rfl⟩) rfl rfl,
      nofun, fun completion h => (hpeer.completing completion h).imp fun _ hplan =>
        hplan.extends (.same ⟨rfl, rfl, rfl⟩) hplan.locked⟩
  unfold Peer.finish Peer.finishPartUpload
  dsimp only
  cases hfind : peer.uploads.find writing.uploadId with
  | none =>
    refine hi.shrink ⟨Subset.refl _, Subset.refl _, fun path bytes hb => ?_⟩
      (fun _ _ => id) nofun rfl rfl
    dsimp only at hb
    split at hb
    · by_cases hp : path = writing.path
      · rw [hp, update_self] at hb
        cases hb
      · rwa [update_of_ne hp] at hb
    · exact hb
  | some upload =>
    obtain ⟨-, hnone, hfile⟩ := hf.active upload hfind
    have hs := hpeer.staged writing.uploadId upload hfind
    dsimp only
    rw [hnone]
    cases succeeded with
    | false =>
      exact hi.set (.same ⟨rfl, rfl, rfl⟩) rfl
        (hs.extends (.same ⟨rfl, rfl, rfl⟩) rfl rfl) nofun fun completion hsome =>
          hi.planned (.same ⟨rfl, rfl, rfl⟩) rfl hsome (hf.apart completion hsome)
    | true =>
      have he : Extends peer (peer.acknowledge writing.uploadId writing.partNumber writing.body) :=
        ⟨Subset.refl _, subset_append_left _ _, fun _ _ => id⟩
      refine hi.set ⟨he.issued, he.acknowledged, he.files⟩ rfl
        ⟨hs.issued, hs.named, fun partNumber staged hpart => ?_⟩ nofun
        fun completion hsome => hi.planned ⟨he.issued, he.acknowledged, he.files⟩ rfl hsome
          (hf.apart completion hsome)
      rw [find_set] at hpart
      split at hpart
      · rename_i hn
        cases hpart
        subst hn
        refine ⟨hf.path, writing.body, hf.sha256, hf.size, ?_, fun bytes hb => ?_⟩
        · exact mem_append_right _ (mem_singleton_self _)
        · have hbody := hfile hwritten
          rw [hf.path] at hbody
          exact some.inj (hb.symm.trans hbody)
      · obtain ⟨hp, body, hbacked⟩ := hs.parts partNumber staged hpart
        exact ⟨hp, body, hbacked.mono (subset_append_left _ _) fun _ => id⟩

theorem consistent_create (hidle : peer.completing = none)
    (hfresh : uploadId ∉ peer.issued) (mediaType : String) (size : Nat) (sha256 : Option Hash)
    (partSize : Option Nat) (now : Nat) (fault : Bool) :
    (peer.createBlobUpload uploadId mediaType size sha256 partSize now fault).1.Consistent digest
      fact := by
  obtain ⟨hs, hi, hc⟩ := consistent_sweepExpired hpeer now
  rw [hidle] at hc
  rw [← hi] at hfresh
  unfold Peer.createBlobUpload
  generalize peer.sweepExpired now = swept at *
  have hr : ∀ upload : UploadSession, upload.uploadId = uploadId → upload.parts = .empty →
      Peer.Consistent digest fact { swept with
          uploads := swept.uploads.set uploadId upload
          issued := uploadId :: swept.issued } := by
    intro upload hn hp
    have he : Extends swept { swept with
        uploads := swept.uploads.set uploadId upload
        issued := uploadId :: swept.issued } :=
      ⟨subset_cons_self _ _, Subset.refl _, fun _ _ => id⟩
    refine hs.set he rfl ⟨(.head _), hn, fun _ _ h => by rw [hp] at h; cases h⟩
      (fun writing hsome => ?_) fun completion hsome => ?_
    · have hf := hs.writing writing hsome
      refine { hf with issued := he.issued hf.issued, active := fun found hfound => ?_ }
      rw [find_set, if_neg fun h : writing.uploadId = uploadId => hfresh (h ▸ hf.issued)] at hfound
      exact hf.active found hfound
    · cases hc.symm.trans hsome
  dsimp only
  split_ifs
  · exact hs
  · exact hs
  · exact hs
  · exact hs
  · exact consistent_removeUpload (hr _ rfl rfl) uploadId
  · exact hr _ rfl rfl

theorem consistent_complete (manifest : List BlobUploadPart) (now : Nat) :
    (peer.complete uploadId manifest now).1.Consistent digest fact := by
  obtain ⟨hs, -, -⟩ := consistent_sweepExpired hpeer now
  unfold Peer.complete Peer.prepareCompletion
  generalize peer.sweepExpired now = swept at *
  cases hfind : swept.uploads.find uploadId with
  | none => exact hs
  | some upload =>
    cases hc : upload.checkManifest manifest [] 0 [] with
    | none =>
      simp only [hc]
      split_ifs
      · exact consistent_removeUpload hs uploadId
      · exact hs
      · exact hs
    | some checked =>
      simp only [hc]
      split_ifs with he hbusy ht hcount
      · exact consistent_removeUpload hs uploadId
      · exact hs
      · exact hs
      · exact hs
      have hstaged := hs.staged uploadId upload hfind
      obtain rfl := hstaged.named
      obtain ⟨bodies, hb, hsize, hp⟩ := checkManifest_backed hstaged hc
      have hi : upload.activePart = false := by simp_all
      refine hs.set (.same ⟨rfl, rfl, rfl⟩) rfl
        (hstaged.extends (.same ⟨rfl, rfl, rfl⟩) rfl rfl) (fun writing hsome => ?_) ?_
      · have hflight := hs.writing writing hsome
        have ho : writing.uploadId ≠ upload.uploadId := by
          intro hsame
          cases hi.symm.trans (hflight.active upload (hsame ▸ hfind)).1
        refine { hflight with active := fun found hf => ?_, apart := ?_ }
        · rw [find_set, if_neg ho] at hf
          exact hflight.active found hf
        · rintro completion ⟨rfl⟩
          exact ho
      · rintro _ ⟨rfl⟩
        refine ⟨bodies, hstaged.issued, fun found hf => ?_, hp,
          hb.imp fun _ _ h => h.extends (.same ⟨rfl, rfl, rfl⟩), ?_, fun hn hash hh => ?_,
          fun _ h => by cases h⟩
        · rw [find_set, if_pos rfl] at hf
          cases hf
          rfl
        · rw [← not_not.mp ht, hsize, Nat.zero_add]
        · cases hn.symm.trans hh

theorem consistent_fail (completion : Completion) :
    (peer.failCompletion completion).Consistent digest fact := by
  have hf : ∀ uploadId upload,
      (peer.clearCompleting completion.plan.uploadId).uploads.find uploadId = some upload →
      ∃ earlier, peer.uploads.find uploadId = some earlier ∧ upload.uploadId = earlier.uploadId ∧
        upload.parts = earlier.parts ∧ upload.activePart = earlier.activePart := by
    intro uploadId upload hf
    unfold Peer.clearCompleting at hf
    rw [find_adjust] at hf
    split at hf
    · obtain ⟨earlier, he, rfl⟩ := map_eq_some_iff.mp hf
      exact ⟨earlier, he, rfl, rfl, rfl⟩
    · exact ⟨upload, hf, rfl, rfl, rfl⟩
  refine ⟨fun uploadId upload h => ?_, fun writing h => ?_, fun _ h => by cases h⟩
  · obtain ⟨earlier, he, hn, hp, -⟩ := hf uploadId upload h
    exact (hpeer.staged uploadId earlier he).extends (.same ⟨rfl, rfl, rfl⟩) hn hp
  · have hflight := hpeer.writing writing h
    refine { hflight with active := fun upload h => ?_, apart := fun _ h => by cases h }
    obtain ⟨earlier, he, -, hp, ha⟩ := hf writing.uploadId upload h
    rw [hp, ha]
    exact hflight.active earlier he

theorem Peer.Consistent.proceed (hsome : peer.completing = some completion)
    (hp : later.plan = completion.plan)
    (hn : ∃ bodies, Planned digest fact peer completion bodies ∧ later.manifest =
      completion.manifest ∧ (later.plan.expectedSha256 = none → ∀ hash, later.finalHash = some hash
      → digest bodies.flatten = hash) ∧ ∀ hash, later.stored = some (.ok hash) → later.finalHash =
      some hash ∧ fact hash bodies.flatten) :
    Peer.Consistent digest fact { peer with completing := some later } := by
  have he : Extends peer { peer with completing := some later } := .same ⟨rfl, rfl, rfl⟩
  refine ⟨fun uploadId upload h => (hpeer.staged uploadId upload h).extends he rfl rfl,
    fun writing h => ?_, ?_⟩
  · have hf := hpeer.writing writing h
    exact { hf with apart := by rintro _ ⟨rfl⟩; exact hp ▸ hf.apart completion hsome }
  · rintro _ ⟨rfl⟩
    obtain ⟨bodies, ho, hm, hh, hs⟩ := hn
    exact ⟨bodies, hp ▸ ho.issued, hp ▸ ho.locked, by rw [hp, hm, ho.paths],
      by rw [hp, hm]; exact ho.backed.imp fun _ _ h => h.extends he,
      by rw [hp, ho.size], hh, hs⟩

theorem consistent_hashParts
    (hs : peer.completing = some completion) (hn : completion.finalHash = none) (fault : Bool) :
    (peer.hashParts digest completion fault).1.Consistent digest fact := by
  unfold Peer.hashParts
  split
  · exact consistent_fail hpeer completion
  rename_i parts hr
  split
  swap
  · exact consistent_fail hpeer completion
  obtain ⟨_, hp⟩ := hpeer.completing completion hs
  have hr : peer.readParts completion.plan.partPaths = some parts := by
    cases fault with
    | false => exact hr
    | true => cases hr
  rw [hp.paths] at hr
  obtain rfl := readParts_backed hp.backed hr
  refine hpeer.proceed hs rfl ⟨parts, hp, rfl, fun _ hash hh => ?_, fun hash hstored => ?_⟩
  · cases hh
    rfl
  · cases hn.symm.trans (hp.stored hash hstored).1

end Consistent

section Parts

variable {hash : Hash}

theorem putParts_ok (hok : (BlobStore.putPartFilesWithHash digest slot parts mediaType size hash
      durability now fault).2 = .ok found) :
    found = hash ∧ BlobStore.validateHash hash = true ∧
      (slot.blob = none ∨ slot.record = none → fault.parts = false ∧ digest parts.flatten = hash) := by
  unfold BlobStore.putPartFilesWithHash at hok
  split at hok
  · cases hok
  rename_i hv
  split at hok
  · cases hok
  split at hok
  · cases hok
  dsimp only at hok
  split at hok
  · split at hok
    · cases hok
    · cases hok
      refine ⟨rfl, by simpa using hv, fun ha => ?_⟩
      simp_all
  split at hok
  · cases hok
  split at hok
  · cases hok
  split at hok
  · cases hok
  rename_i hp _ hd
  have hf : found = hash := by
    unfold BlobStore.publishParts at hok
    dsimp only at hok
    split_ifs at hok <;> cases hok <;> rfl
  exact ⟨hf, by simpa using hv, fun _ => ⟨by simpa using hp, not_not.mp hd⟩⟩

theorem putParts_error (he : (BlobStore.putPartFilesWithHash digest slot parts mediaType size
      hash durability now fault).2 = .error message)
    (hr : fault.record = true → slot.record.isSome ∨ fault.blob = true ∨
      slot.blob = none ∧ fault.cleanup = false) :
    (BlobStore.putPartFilesWithHash digest slot parts mediaType size hash durability now fault).1 =
      slot := by
  unfold BlobStore.putPartFilesWithHash at he ⊢
  split
  · rfl
  split
  · rfl
  split
  · rfl
  dsimp only at he ⊢
  split
  · split
    · rfl
    · simp_all
  split
  · rfl
  split
  · rfl
  split
  · rfl
  unfold BlobStore.publishParts at he ⊢
  cases slot
  split_ifs at he ⊢ <;> simp_all [Slot.vacant]

end Parts

theorem Peer.Consistent.mono (hp : peer.Consistent digest fact)
    (hl : ∀ hash bytes, fact hash bytes → larger hash bytes) : peer.Consistent digest larger :=
  ⟨hp.staged, hp.writing, fun completion hs =>
    (hp.completing completion hs).imp fun _ hplan =>
      { hplan with stored := fun hash h => (hplan.stored hash h).imp_right (hl hash _) }⟩

theorem storeResult_perform (store : Store) (parts : List Bytes) (mediaType : String) (size : Nat)
    (hash : Hash) (durability : BlobStore.Durability) (now : Nat) (fault : BlobStore.Fault) :
    storeResult (store.perform digest
        (.PutParts parts mediaType size hash durability now fault)).2 =
      (BlobStore.putPartFilesWithHash digest (store.disk hash) parts mediaType size hash durability
        now fault).2 := by
  unfold Store.perform
  dsimp only
  generalize BlobStore.putPartFilesWithHash _ _ _ _ _ _ _ _ _ = outcome
  obtain ⟨_, _ | _⟩ := outcome <;> rfl

def Checks (digest : Bytes → Hash) (fact : Hash → Bytes → Prop) (peer : Peer) (store : Store)
    (now : Nat) (fault : BlobStore.Fault) : Prop :=
  ∀ completion hash bodies, peer.completing = some completion → completion.finalHash = some hash →
    Planned digest fact peer completion bodies →
    ∀ found, storeResult (store.perform digest (peer.storeEvent completion hash now fault)).2 =
      .ok found → fact found bodies.flatten

theorem consistent_perform (hpeer : peer.Consistent digest fact)
    (hchecks : ∀ now fault, event = .StoreParts now fault → Checks digest fact peer store now
      fault) (hstep : peer.perform digest store event = some (after, stored, response)) :
    after.Consistent digest fact := by
  cases event <;> dsimp only [Peer.perform] at hstep
  case Put mediaType size sha256 durability body now fault =>
    split_ifs at hstep
    · cases hstep
      exact hpeer
    · cases hstep
      exact hpeer
    · cases hstep
      exact hpeer
    · split at hstep <;> cases hstep <;> exact hpeer
  case Part uploadId partNumber size sha256 body now =>
    split at hstep <;> cases hstep
    · exact hpeer
    · exact consistent_part hpeer ..
  case Write succeeds =>
    split at hstep
    · rename_i writing hwriting
      split at hstep <;> cases hstep
      exact consistent_write hpeer hwriting succeeds
    · cases hstep
  case Finish removed =>
    split at hstep
    · rename_i writing hwriting
      obtain ⟨_, hwritten, hstep⟩ := map_eq_some_iff.mp hstep
      cases hstep
      exact consistent_finish hpeer hwriting hwritten removed
    · cases hstep
  case Create uploadId mediaType size sha256 partSize now fault =>
    split at hstep <;> cases hstep
    rename_i hguard
    exact consistent_create hpeer (isNone_iff_eq_none.mp hguard.1) hguard.2 ..
  case Complete uploadId manifest now =>
    split at hstep <;> cases hstep
    exact consistent_complete hpeer manifest now
  case HashParts fault =>
    split at hstep
    · rename_i completion hsome
      split at hstep <;> cases hstep
      rename_i hnone
      exact consistent_hashParts hpeer hsome (isNone_iff_eq_none.mp hnone) fault
    · cases hstep
  case StoreParts now fault =>
    split at hstep
    · rename_i completion hsome
      split at hstep <;> cases hstep
      rename_i hash hfinal _
      obtain ⟨bodies, hplan⟩ := hpeer.completing completion hsome
      refine hpeer.proceed hsome rfl ⟨bodies, hplan, rfl, hplan.hashed, fun found hfound => ?_⟩
      have hok := some.inj hfound
      refine ⟨?_, hchecks now fault rfl completion hash bodies hsome hfinal hplan found hok⟩
      rw [Peer.storeEvent, storeResult_perform] at hok
      rw [(putParts_ok hok).1]
      exact hfinal
    · cases hstep
  case Answer =>
    split at hstep
    · rename_i completion hsome
      obtain ⟨result, _, hstep⟩ := map_eq_some_iff.mp hstep
      cases hstep
      cases result with
      | error => exact consistent_fail hpeer completion
      | ok => exact (consistent_removeUpload hpeer completion.plan.uploadId).idle
    · cases hstep
  case Abort uploadId now =>
    split at hstep <;> cases hstep
    unfold Peer.abort
    dsimp only
    split
    · exact consistent_removeUpload (consistent_sweepExpired hpeer now).1 uploadId
    · exact (consistent_sweepExpired hpeer now).1
  case Sweep now =>
    cases hstep
    exact (consistent_sweepExpired hpeer now).1
  case Clean path =>
    split at hstep <;> cases hstep
    rename_i hnone
    refine hpeer.shrink ⟨Subset.refl _, Subset.refl _, fun other bytes hbytes => ?_⟩
      (fun _ _ => id) (fun writing upload hwriting hfind => ?_) rfl rfl
    · by_cases hpath : other = path
      · dsimp only at hbytes
        rw [hpath, update_self] at hbytes
        cases hbytes
      · exact (update_of_ne hpath ..).symm.trans hbytes
    · refine update_of_ne ?_ ..
      rintro rfl
      rw [(hpeer.writing writing hwriting).path] at hnone
      simp [hfind] at hnone

end Nteract.BlobUpload
