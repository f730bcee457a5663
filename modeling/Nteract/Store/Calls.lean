import Nteract.Store.View

namespace Nteract.Store

open Lib Lib.Bytes Recovery Finset Option Table

variable {Key : Type}

variable [LinearOrder Key] (backend : Backend Key)

structure Frame (before after : Database Key) (documentId : DocumentId) : Prop where
  documents : ∀ other, other ≠ documentId →
    after.documents.find other = before.documents.find other
  chunks : ∀ chunk : ChunkId Key, chunk.documentId ≠ documentId →
    after.chunks.find chunk = before.chunks.find chunk

-- A call on the tables and the same call on the view end in the same way.
def Refines {α β : Type} (same : α → β → Prop) (before : Database Key) (documentId : DocumentId) :
    Except (StoreError Key) (α × Database Key) → Except (StoreError Key) (β × View) → Prop
  | .error error, .error expected => error = expected
  | .ok (receipt, after), .ok (expected, view) =>
    same receipt expected ∧ Shows backend after documentId view ∧ Frame before after documentId
  | _, _ => False

variable {backend} {database after : Database Key} {documentId : DocumentId} {image : Image}
  {sequence : Nat}
  {view : View}

theorem Frame.refl (database : Database Key) (documentId : DocumentId) :
    Frame database database documentId :=
  ⟨fun _ _ => rfl, fun _ _ => rfl⟩

theorem Frame.trans (hf : Frame database middle documentId) (hs : Frame middle after documentId) :
    Frame database after documentId :=
  ⟨fun other hn => (hs.documents other hn).trans (hf.documents other hn),
    fun chunk hn => (hs.chunks chunk hn).trans (hf.chunks chunk hn)⟩

theorem Frame.shows (hf : Frame database after documentId) (hn : other ≠ documentId)
    (hs : Shows backend database other view) : Shows backend after other view := by
  have hchunks : ∀ kind key, after.chunks.find ⟨other, kind, key⟩ =
      database.chunks.find ⟨other, kind, key⟩ := fun kind key => hf.chunks _ hn
  cases view with
  | Absent => exact ⟨(hf.documents other hn).trans hs.1, fun kind key =>
    (hchunks kind key).trans (hs.2 kind key)⟩
  | Broken =>
    obtain ⟨hc, row, document, hr, hh⟩ := hs
    exact ⟨fun kind key => (hchunks kind key).trans (hc kind key), row, document,
      (hf.documents other hn).trans hr, hh⟩
  | Stored =>
    obtain ⟨hr, hc, ha⟩ := hs
    refine ⟨(hf.documents other hn).trans hr, ⟨hc.loads, fun key row => ?_, fun key row => ?_⟩, ha⟩
    · rw [hchunks]
      exact hc.snapshots key row
    · rw [hchunks]
      exact hc.incrementals key row

theorem frame_updateDocumentRow (sequence : Nat) (heads : List ChangeHash)
    (applicationState : Bytes) (database : Database Key) (documentId : DocumentId) :
    Frame database (updateDocumentRow documentId sequence heads applicationState database)
      documentId := by
  refine ⟨fun other hn => ?_, fun _ _ => rfl⟩
  exact (find_set _ _ _ _).trans (if_neg hn)

theorem frame_insertChunk (kind : ChunkKind) (key checksum : Key) (bytes : Bytes)
    (database : Database Key) (documentId : DocumentId) :
    Frame database (insertChunk documentId kind key checksum bytes database) documentId := by
  unfold insertChunk
  split
  · exact .refl _ _
  · refine ⟨fun _ _ => rfl, fun chunk hn => ?_⟩
    have hne : chunk ≠ ⟨documentId, kind, key⟩ := fun he => hn (he ▸ rfl)
    exact (find_add _ _ _ _).trans (if_neg hne)

theorem find_insertChunk (hb : bytes ≠ []) (kind : ChunkKind) (key checksum : Key)
    (chunk : ChunkId Key) :
    (insertChunk documentId kind key checksum bytes database).chunks.find chunk =
      if chunk = ⟨documentId, kind, key⟩ then
        some ((database.chunks.find ⟨documentId, kind, key⟩).getD ⟨checksum, bytes⟩)
      else
        database.chunks.find chunk := by
  unfold insertChunk
  rw [if_neg hb]
  exact find_add _ _ _ _

-- A change stored under its own hash joins the image. One that is there already stays.
theorem Chunks.insertIncrementalChunk (hc : Chunks backend database documentId image)
    (change : ChangeHash) :
    Chunks backend
      (insertIncrementalChunk backend documentId (backend.rawBytes change) database) documentId
      { image with pending := image.pending ∪ {change} } := by
  unfold Store.insertIncrementalChunk
  have hb := backend.rawBytes_ne change
  refine ⟨hc.loads, fun key row => ?_, fun key row => ?_⟩
  · rw [find_insertChunk hb, if_neg (by simp)]
    exact hc.snapshots key row
  · rw [find_insertChunk hb]
    simp only [ChunkId.mk.injEq, true_and, mem_union, mem_singleton]
    by_cases hk : key = backend.sha256 (backend.rawBytes change)
    · rw [if_pos hk, ← hk]
      have ho : (database.chunks.find ⟨documentId, .Incremental, key⟩).getD
          ⟨key, backend.rawBytes change⟩ = ⟨key, backend.rawBytes change⟩ := by
        cases hf : database.chunks.find ⟨documentId, .Incremental, key⟩ with
        | none => rfl
        | some stored =>
          obtain ⟨same, _, hkey, hr⟩ := (hc.incrementals _ _).mp hf
          rw [getD_some, hr, backend.sha256_injective (hk.symm.trans hkey), hk]
      rw [ho]
      constructor
      · intro hr
        exact ⟨change, .inr rfl, hk, (some.inj hr).symm⟩
      · rintro ⟨_, _, hkey, rfl⟩
        rw [← backend.sha256_injective (hk.symm.trans hkey)]
    · rw [if_neg hk, hc.incrementals]
      constructor
      · rintro ⟨stored, hp, hkey, hr⟩
        exact ⟨stored, .inl hp, hkey, hr⟩
      · rintro ⟨stored, hp | hn, hkey, hr⟩
        · exact ⟨stored, hp, hkey, hr⟩
        · exact absurd (hn ▸ hkey) hk

theorem Chunks.insertAll (changes : List ChangeHash)
    (hc : Chunks backend database documentId image) :
    Chunks backend (changes.foldl (fun database change =>
        Store.insertIncrementalChunk backend documentId (backend.rawBytes change) database) database)
      documentId { image with pending := image.pending ∪ changes.toFinset } := by
  induction changes generalizing database image with
  | nil => simpa using hc
  | cons change changes ih =>
    have hu : image.pending ∪ (change :: changes).toFinset =
        image.pending ∪ {change} ∪ changes.toFinset := by
      ext other
      simp
    rw [hu]
    exact ih (hc.insertIncrementalChunk change)

theorem frame_insertAll (changes : List ChangeHash) (database : Database Key) :
    Frame database (changes.foldl (fun database change =>
      Store.insertIncrementalChunk backend documentId (backend.rawBytes change) database) database)
      documentId := by
  induction changes generalizing database with
  | nil => exact .refl _ _
  | cons _ _ ih => exact (frame_insertChunk _ _ _ _ _ _).trans (ih _)

omit [LinearOrder Key] in
theorem accepts_commit {added : List ChangeHash} (ha : Accepts backend image)
    (hap : backend.applyChanges image.total added.toFinset = .ok document) :
    Accepts backend { image with pending := image.pending ∪ added.toFinset } := by
  intro part change hl hh hp
  by_cases ho : change ∈ part
  · rw [Automerge.applyChanges_of_subset (singleton_subset_iff.mpr ho),
      union_eq_left.mpr (singleton_subset_iff.mpr ho)]
  · unfold Automerge.applyChanges at hap
    split at hap
    · rename_i hsub
      -- nothing is new to the document, so the image's own chunks decide
      have ht : part ⊆ image.total :=
        hh.trans (union_subset subset_union_left (union_subset subset_union_right hsub))
      rcases mem_union.mp hp with hp | hp
      · exact ha part change hl ht hp
      · rcases mem_union.mp (hsub hp) with hs | hp
        · exact absurd (hl hs) ho
        · exact ha part change hl ht hp
    · split at hap
      · cases hap
      · rename_i hn
        have hpart : part ∪ ({change} \ part) ⊆ image.total ∪ (added.toFinset \ image.total) := by
          rw [union_sdiff_self_eq_union, union_sdiff_self_eq_union]
          have hall : image.snapshot ∪ (image.pending ∪ added.toFinset) =
              image.total ∪ added.toFinset := (union_assoc _ _ _).symm
          refine union_subset (hh.trans_eq hall) ?_
          exact singleton_subset_iff.mpr (hall ▸ mem_union_right _ hp)
        have hn := backend.refuses_mono _ _ _ _ hn hpart
        unfold Automerge.applyChanges
        rw [if_neg (fun hsub => ho (singleton_subset_iff.mp hsub)), hn]

theorem missingChanges_eq (loaded : LoadedDocument Key)
    (hc : Chunks backend database documentId image) (hd : loaded.document = image.total)
    (hs : ∀ kind key, (kind, key) ∈ loaded.sourceChunks ↔
      (database.chunks.find ⟨documentId, kind, key⟩).isSome) (changes : List ChangeHash) :
    missingChanges backend changes loaded = View.missing backend changes image := by
  have hkey : ∀ change, (ChunkKind.Incremental, backend.sha256 (backend.rawBytes change)) ∈
      loaded.sourceChunks ↔ change ∈ image.pending := by
    intro change
    rw [hs, isSome_iff_exists]
    constructor
    · rintro ⟨_, hf⟩
      obtain ⟨_, hp, hk, _⟩ := (hc.incrementals _ _).mp hf
      rwa [rawBytes_injective backend (backend.sha256_injective hk)]
    · intro hp
      exact ⟨_, (hc.incrementals _ _).mpr ⟨change, hp, rfl, rfl⟩⟩
  unfold missingChanges View.missing
  simp [hkey, hd, Automerge.getChangeByHash]

variable {α β γ : Type} {call : γ → Except (StoreError Key) (α × Database Key)}
  {applicationState : Bytes}

theorem Refines.bind (action : Except (StoreError Key) γ)
    {expected : γ → Except (StoreError Key) (β × View)}
    (hn : ∀ value, action = .ok value → Refines backend same database documentId (call value) (expected value)) :
    Refines backend same database documentId (action >>= call) (action >>= expected) := by
  cases action with
  | error => exact rfl
  | ok value => exact hn value rfl

theorem Refines.bind_ok (ha : action = .ok value)
    (hr : Refines backend same database documentId (call value) expected) :
    Refines backend same database documentId (action >>= call) expected := by
  rw [ha]
  exact hr

theorem Refines.bind_error (ha : action = .error error) :
    Refines backend same database documentId (action >>= call)
      (.error error : Except (StoreError Key) (β × View)) := by
  rw [ha]
  exact rfl

theorem loadInstalled_stored
    (hs : Shows backend database documentId (.Stored sequence applicationState image)) :
    ∃ sourceChunks, loadInstalled backend database documentId =
        .ok ⟨image.total, backend.getHeads image.total, applicationState, sequence, sourceChunks⟩ ∧
      ∀ kind key, (kind, key) ∈ sourceChunks ↔
        (database.chunks.find ⟨documentId, kind, key⟩).isSome := by
  obtain ⟨sourceChunks, hl, hsource⟩ := loadDocument_stored hs
  refine ⟨sourceChunks, ?_, hsource⟩
  unfold loadInstalled
  rw [hl]

theorem loadInstalled_absent (hs : Shows backend database documentId .Absent) :
    loadInstalled backend database documentId = .error (.DocumentNotFound documentId) := by
  unfold loadInstalled
  rw [loadDocument_absent hs]

theorem loadInstalled_broken (hs : Shows backend database documentId .Broken) :
    loadInstalled backend database documentId = .error (.MissingChunks documentId) := by
  unfold loadInstalled
  rw [loadDocument_broken hs]

theorem shows_commit {added : List ChangeHash}
    (hs : Shows backend database documentId (.Stored sequence applicationState image))
    (hap : backend.applyChanges image.total added.toFinset = .ok document) : Shows backend
      (updateDocumentRow documentId next (backend.getHeads document) state
        (added.foldl (fun database change =>
          Store.insertIncrementalChunk backend documentId (backend.rawBytes change) database)
          database)) documentId
      (.Stored next state { image with pending := image.pending ∪ added.toFinset }) := by
  have hd : document = image.snapshot ∪ (image.pending ∪ added.toFinset) :=
    (Automerge.applyChanges_eq_ok hap).trans (union_assoc _ _ _)
  have hc := hs.2.1.insertAll added
  refine ⟨?_, ⟨hc.loads, hc.snapshots, hc.incrementals⟩, accepts_commit hs.2.2 hap⟩
  rw [hd]
  exact (find_set _ _ _ _).trans (if_pos rfl)

theorem commit_refines (faults : Faults) (request : CommitRequest)
    (hs : Shows backend database request.documentId view) :
    Refines backend (· = ·) database request.documentId
      (commit backend faults database request) (View.commit backend faults request view) := by
  refine Refines.bind _ fun _ _ => ?_
  cases view with
  | Absent => exact Refines.bind_error (loadInstalled_absent hs)
  | Broken => exact Refines.bind_error (loadInstalled_broken hs)
  | Stored sequence applicationState image =>
    obtain ⟨sourceChunks, hl, hsource⟩ := loadInstalled_stored hs
    have hm := missingChanges_eq ⟨image.total, backend.getHeads image.total,
      applicationState, sequence, sourceChunks⟩ hs.2.1 rfl hsource request.changes
    refine Refines.bind_ok hl ?_
    simp only [hm]
    by_cases hk : View.missing backend request.changes image = [] ∧
        applicationState = request.applicationState
    · rw [if_pos hk, if_pos hk]
      exact ⟨rfl, hs, .refl _ _⟩
    · rw [if_neg hk, if_neg hk]
      cases hap : backend.applyChanges image.total
          (View.missing backend request.changes image).toFinset with
      | error error => exact rfl
      | ok document =>
        refine Refines.bind _ fun accepted ha => ?_
        cases ha
        refine Refines.bind _ fun next _ => Refines.bind _ fun _ _ => ?_
        rw [canonicalHeads_getHeads]
        exact ⟨rfl, shows_commit hs hap,
          (frame_insertAll _ _).trans (frame_updateDocumentRow _ _ _ _ _)⟩

theorem shows_install (hs : Shows backend database documentId .Absent)
    (hl : backend.load bytes = .ok candidate) :
    Shows backend (insertSnapshotChunk backend documentId bytes (backend.getHeads candidate)
        (updateDocumentRow documentId sequence (backend.getHeads candidate) applicationState
          database)) documentId
      (if bytes = [] then .Broken else .Stored sequence applicationState ⟨candidate, bytes, ∅⟩) := by
  have hr : (updateDocumentRow documentId sequence (backend.getHeads candidate)
      applicationState database).documents.find documentId =
        some ⟨sequence, encodeHeads (backend.getHeads candidate), applicationState⟩ :=
    (find_set _ _ _ _).trans (if_pos rfl)
  by_cases hb : bytes = []
  · unfold insertSnapshotChunk insertChunk
    rw [if_pos hb, if_pos hb]
    exact ⟨hs.2, _, candidate, hr, rfl⟩
  · rw [if_neg hb]
    refine ⟨?_, ⟨hl, fun key row => ?_, fun key row => ?_⟩, ?_⟩
    · unfold insertSnapshotChunk insertChunk
      rw [if_neg hb, hr, Image.total, union_empty]
    · unfold insertSnapshotChunk
      rw [find_insertChunk hb]
      have hn : (updateDocumentRow documentId sequence (backend.getHeads candidate)
          applicationState database).chunks = database.chunks := rfl
      rw [hn, hs.2, hs.2]
      by_cases hk : key = backend.headsHash (backend.getHeads candidate)
      · simp [eq_comm]
      · simp [hk]
    · unfold insertSnapshotChunk
      rw [find_insertChunk hb, if_neg (by simp)]
      have hn : (updateDocumentRow documentId sequence (backend.getHeads candidate)
          applicationState database).chunks = database.chunks := rfl
      rw [hn, hs.2]
      simp
    · intro document change _ _ hp
      exact absurd hp (notMem_empty _)

theorem installSnapshot_refines (faults : Faults) (snapshot : Bytes) (heads : List ChangeHash)
    (applicationState : Bytes) (hs : Shows backend database documentId view) :
    Refines backend (· = ·) database documentId
      (installSnapshot backend faults database documentId snapshot heads applicationState)
      (View.installSnapshot backend faults documentId snapshot heads applicationState view) := by
  unfold installSnapshot View.installSnapshot
  cases hl : backend.load snapshot with
  | error => exact rfl
  | ok candidate =>
    refine Refines.bind _ fun loaded hload => ?_
    cases hload
    rw [canonicalHeads_getHeads]
    by_cases hh : backend.getHeads candidate = canonicalHeads heads
    · rw [if_neg (fun hn => hn hh), if_neg (fun hn => hn hh)]
      refine Refines.bind _ fun _ _ => ?_
      cases view with
      | Broken => exact Refines.bind_error (loadDocument_broken hs)
      | Stored _ state image =>
        obtain ⟨_, hd, _⟩ := loadDocument_stored hs
        refine Refines.bind_ok hd ?_
        by_cases hsame : backend.getHeads image.total = backend.getHeads candidate ∧
            state = applicationState
        · simp only [if_pos hsame]
          exact ⟨rfl, hs, .refl _ _⟩
        · simp only [if_neg hsame]
          exact rfl
      | Absent =>
        refine Refines.bind_ok (loadDocument_absent hs) ?_
        refine Refines.bind _ fun next _ => Refines.bind _ fun _ _ => ?_
        exact ⟨rfl, shows_install hs hl,
          (frame_updateDocumentRow _ _ _ _ _).trans (frame_insertChunk _ _ _ _ _ _)⟩
    · rw [if_pos hh, if_pos hh]
      exact rfl

omit [LinearOrder Key] in
theorem snapshot_eq_total (hc : backend.getChanges image.total = image.total)
    (hh : backend.getHeads image.snapshot = backend.getHeads image.total) :
    image.snapshot = image.total := by
  have ha := Automerge.getChanges_eq_of_getHeads_eq hh
  refine Subset.antisymm subset_union_left ?_
  calc image.total = backend.getChanges image.snapshot := (ha.trans hc).symm
    _ ⊆ image.snapshot := Automerge.getChanges_subset _

variable (snapshotKey : Key)

theorem find_removeSource (state : Nat × Database Key)
    (source : ChunkKind × Key) (chunk : ChunkId Key) :
    (removeSource documentId snapshotKey state source).2.chunks.find chunk =
      if chunk.documentId = documentId ∧ (chunk.kind, chunk.key) = source ∧
          source ≠ (.Snapshot, snapshotKey) then
        none
      else
        state.2.chunks.find chunk := by
  unfold removeSource
  obtain ⟨_, _, _⟩ := chunk
  by_cases hk : source = (.Snapshot, snapshotKey)
  · simp [hk]
  · rw [if_neg hk]
    refine (find_remove _ _ _).trans ?_
    simp [ChunkId.mk.injEq, ne_eq, hk, not_false_eq_true, and_true, Prod.ext_iff]

theorem find_removeSources (sources : List (ChunkKind × Key))
    (chunk : ChunkId Key) (state : Nat × Database Key) :
    (sources.foldl (removeSource documentId snapshotKey) state).2.chunks.find chunk =
      if chunk.documentId = documentId ∧ (chunk.kind, chunk.key) ∈ sources ∧
          (chunk.kind, chunk.key) ≠ (.Snapshot, snapshotKey) then
        none
      else
        state.2.chunks.find chunk := by
  induction sources generalizing state with
  | nil => simp
  | cons source _ ih =>
    rw [List.foldl_cons, ih, find_removeSource]
    by_cases he : (chunk.kind, chunk.key) = source
    · split <;> split <;> simp_all
    · simp [he]

theorem documents_removeSources (sources : List (ChunkKind × Key))
    (state : Nat × Database Key) :
    (sources.foldl (removeSource documentId snapshotKey) state).2.documents =
      state.2.documents := by
  induction sources generalizing state with
  | nil => rfl
  | cons _ _ ih =>
    rw [List.foldl_cons, ih]
    unfold removeSource
    split <;> rfl

-- The snapshot is ignored when one with its heads is there, and alone stays.
theorem Chunks.compacted (hc : Chunks backend database documentId image)
    (hs : ∀ kind key, (kind, key) ∈ sourceChunks ↔ (database.chunks.find ⟨documentId, kind,
      key⟩).isSome) (hcomplete : backend.getChanges image.total = image.total) :
    Chunks backend
      (removeSources documentId (backend.headsHash (backend.getHeads image.total)) sourceChunks
        (insertSnapshotChunk backend documentId (backend.save image.total)
          (backend.getHeads image.total) database)).2
      documentId (View.compacted backend image) := by
  have hg : ∀ kind key row, database.chunks.find ⟨documentId, kind, key⟩ = some row →
      (kind, key) ∈ sourceChunks := by
    intro kind key row hf
    rw [hs, hf]
    rfl
  unfold removeSources insertSnapshotChunk
  refine ⟨?_, fun key row => ?_, fun key row => ?_⟩
  · unfold View.compacted
    by_cases hh : backend.getHeads image.snapshot = backend.getHeads image.total
    · simp only [if_pos hh]
      rw [hc.loads, snapshot_eq_total hcomplete hh]
    · simp only [if_neg hh]
      exact backend.load_save _
  · rw [find_removeSources, find_insertChunk (backend.save_ne _)]
    by_cases hk : key = backend.headsHash (backend.getHeads image.total)
    · have hkept : (database.chunks.find ⟨documentId, .Snapshot,
          backend.headsHash (backend.getHeads image.total)⟩).getD
            ⟨backend.sha256 (backend.save image.total), backend.save image.total⟩ =
          ⟨backend.sha256 (View.compacted backend image).bytes,
            (View.compacted backend image).bytes⟩ := by
        unfold View.compacted
        by_cases hh : backend.getHeads image.snapshot = backend.getHeads image.total
        · have hf := (hc.snapshots (backend.headsHash (backend.getHeads image.total)) _).mpr
            ⟨by rw [hh], rfl⟩
          rw [hf, if_pos hh, getD_some]
        · cases hf : database.chunks.find ⟨documentId, .Snapshot,
              backend.headsHash (backend.getHeads image.total)⟩ with
          | none => rw [if_neg hh, getD_none]
          | some stored =>
            have hkey := ((hc.snapshots _ _).mp hf).1
            exact absurd (getHeads_eq_of_headsHash backend hkey).symm hh
      rw [if_neg (by simp [hk]), if_pos (by rw [hk]), hkept]
      simp [View.compacted, hk, eq_comm]
    · rw [if_neg (fun he => hk (ChunkId.mk.inj he).2.2)]
      constructor
      · intro hf
        split at hf
        · cases hf
        · rename_i ho
          exact absurd ⟨rfl, hg _ _ _ hf, by simp [hk]⟩ ho
      · rintro ⟨hkey, _⟩
        exact absurd hkey hk
  · rw [find_removeSources, find_insertChunk (backend.save_ne _), if_neg (c := _ = _) (by simp)]
    constructor
    · intro hf
      split at hf
      · cases hf
      · rename_i ho
        exact absurd ⟨rfl, hg _ _ _ hf, by simp⟩ ho
    · rintro ⟨_, hp, _⟩
      exact absurd hp (notMem_empty _)

theorem shows_compact
    (hs : Shows backend database documentId (.Stored sequence applicationState image))
    (hsource : ∀ kind key, (kind, key) ∈ sourceChunks ↔ (database.chunks.find ⟨documentId, kind,
      key⟩).isSome) (hc : backend.getChanges image.total = image.total) : Shows backend
      (removeSources documentId (backend.headsHash (backend.getHeads image.total)) sourceChunks
        (insertSnapshotChunk backend documentId (backend.save image.total)
          (backend.getHeads image.total) database)).2
      documentId (.Stored sequence applicationState (View.compacted backend image)) := by
  refine ⟨?_, hs.2.1.compacted hsource hc, ?_⟩
  · unfold removeSources insertSnapshotChunk insertChunk
    rw [documents_removeSources, if_neg (backend.save_ne _), hs.1]
    unfold View.compacted Image.total
    rw [union_empty]
  · intro document change _ _ hp
    exact absurd hp (notMem_empty _)

theorem frame_removeSources (snapshotKey : Key) (sources : List (ChunkKind × Key))
    (database : Database Key) :
    Frame database (removeSources documentId snapshotKey sources database).2 documentId := by
  unfold removeSources
  refine ⟨fun other _ => by rw [documents_removeSources], fun chunk hn => ?_⟩
  rw [find_removeSources, if_neg (fun h => hn h.1)]

theorem compact_refines (faults : Faults) (hs : Shows backend database documentId view) :
    Refines backend (fun receipt expected =>
        (receipt.durableHeads, receipt.deferredForMissingDependencies) = expected)
      database documentId (compact backend faults database documentId)
      (View.compact backend faults documentId view) := by
  refine Refines.bind _ fun _ _ => ?_
  cases view with
  | Absent => exact Refines.bind_error (loadInstalled_absent hs)
  | Broken => exact Refines.bind_error (loadInstalled_broken hs)
  | Stored _ _ image =>
    obtain ⟨_, hl, hsource⟩ := loadInstalled_stored hs
    refine Refines.bind_ok hl ?_
    by_cases hd : backend.getMissingDeps image.total [] = []
    · simp only [if_neg (not_not_intro hd)]
      have hc := (Automerge.getMissingDeps_eq_nil backend.acyclic).mp hd
      have ha := shows_compact hs hsource hc
      obtain ⟨_, hr, _⟩ := loadInstalled_stored ha
      refine Refines.bind_ok hr ?_
      refine Refines.bind _ fun _ _ => ⟨rfl, ha, ?_⟩
      exact (frame_insertChunk _ _ _ _ _ _).trans (frame_removeSources _ _ _)
    · simp only [if_pos hd]
      exact ⟨rfl, hs, .refl _ _⟩

def View.settle {β : Type} (view : View) : Except (StoreError Key) (β × View) → View
  | .ok (_, after) => after
  | .error _ => view

def View.perform (backend : Backend Key) (documentId : DocumentId) (view : View)
    (call : StoreCall) : View :=
  match call.op with
  | .InstallSnapshot target snapshot heads applicationState =>
    if target = documentId then
      view.settle
        (View.installSnapshot backend call.faults target snapshot heads applicationState view)
    else
      view
  | .Commit request =>
    if request.documentId = documentId then
      view.settle (View.commit backend call.faults request view)
    else
      view
  | .Compact target =>
    if target = documentId then view.settle (View.compact backend call.faults target view)
    else view

theorem shows_settle {call : Except (StoreError Key) (α × Database Key)}
    (hs : Shows backend database documentId view)
    (hr : Refines backend same database documentId call expected) :
    Shows backend (settle wrap database call).2 documentId (view.settle expected) ∧
      Frame database (settle wrap database call).2 documentId := by
  cases call with
  | error error =>
    cases expected with
    | error => exact ⟨hs, .refl _ _⟩
    | ok => exact hr.elim
  | ok =>
    cases expected with
    | error => exact hr.elim
    | ok => exact hr.2

def StoreOp.target : StoreOp → DocumentId
  | .InstallSnapshot documentId _ _ _ => documentId
  | .Commit request => request.documentId
  | .Compact documentId => documentId

theorem shows_target (call : StoreCall) (hs : Shows backend database call.op.target view) :
    Shows backend (perform backend database call).2 call.op.target
        (View.perform backend call.op.target view call) ∧
      Frame database (perform backend database call).2 call.op.target := by
  obtain ⟨op, _⟩ := call
  cases op with
  | InstallSnapshot =>
    simp only [View.perform, StoreOp.target]
    exact shows_settle hs (installSnapshot_refines _ _ _ _ hs)
  | Commit =>
    simp only [View.perform, StoreOp.target]
    exact shows_settle hs (commit_refines _ _ hs)
  | Compact =>
    simp only [View.perform, StoreOp.target]
    exact shows_settle hs (compact_refines _ hs)

-- A call on one document is that call on its view, and no other document notices.
theorem shows_perform (call : StoreCall) (ha : ∀ documentId, ∃ view,
    Shows backend database documentId view) (hs : Shows backend database documentId view) :
    Shows backend (perform backend database call).2 documentId
      (View.perform backend documentId view call) := by
  by_cases ht : call.op.target = documentId
  · subst ht
    exact (shows_target call hs).1
  · obtain ⟨_, ho⟩ := ha call.op.target
    have hsame : View.perform backend documentId view call = view := by
      obtain ⟨op, _⟩ := call
      cases op <;> exact if_neg ht
    rw [hsame]
    exact (shows_target call ho).2.shows (Ne.symm ht) hs

def Viewed (backend : Backend Key) (database : Database Key) (views : DocumentId → View) : Prop :=
  ∀ documentId, Shows backend database documentId (views documentId)

theorem viewed_empty (backend : Backend Key) : Viewed backend .empty fun _ => .Absent :=
  fun _ => ⟨rfl, fun _ _ => rfl⟩

theorem viewed_perform (hv : Viewed backend database views) (call : StoreCall) :
    Viewed backend (perform backend database call).2
      fun documentId => View.perform backend documentId (views documentId) call :=
  fun documentId => shows_perform call (fun other => ⟨views other, hv other⟩) (hv documentId)

theorem viewed_performAll (hv : Viewed backend database views) (calls : List StoreCall) :
    Viewed backend (performAll backend database calls)
      fun documentId => calls.foldl (View.perform backend documentId) (views documentId) := by
  induction calls generalizing database views with
  | nil => exact hv
  | cons call _ ih => exact ih (viewed_perform hv call)

end Nteract.Store
