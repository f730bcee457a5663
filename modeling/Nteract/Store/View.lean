import Nteract.Store

namespace Nteract.Store

open Lib Lib.Bytes Recovery List

-- A snapshot, with the bytes it was written as, and the changes stored one by one.
structure Image where
  snapshot : Document
  bytes : Bytes
  pending : Finset ChangeHash

def Image.total (image : Image) : Document := image.snapshot ∪ image.pending

-- A document as the store's calls see it. A broken one has a row and no chunk.
inductive View
  | Absent
  | Broken
  | Stored (sequence : Nat) (applicationState : Bytes) (image : Image)

variable {Key : Type}

theorem canonicalHeads_getHeads (automerge : Automerge) (document : Document) :
    canonicalHeads (automerge.getHeads document) = automerge.getHeads document := by
  have hle : (automerge.getHeads document).Pairwise (· ≤ ·) :=
    (Automerge.getHeads_sorted document).imp le_of_lt
  exact hle.insertionSort_eq

theorem length_flatMap_digestBytes (heads : List ChangeHash) :
    (heads.flatMap digestBytes).length = HASH_BYTES * heads.length := by
  induction heads with
  | nil => rfl
  | cons head _ ih =>
    have hl : (digestBytes head).length = 32 := digestBytes_length head
    rw [flatMap_cons, length_append, ih, length_cons]
    unfold HASH_BYTES
    omega

theorem any_zip_tail {heads : List ChangeHash} (hs : heads.Pairwise (· < ·)) :
    ((heads.zip heads.tail).any fun pair => pair.1 ≥ pair.2) = false := by
  induction heads with
  | nil => rfl
  | cons head heads ih =>
    rw [pairwise_cons] at hs
    cases heads with
    | nil => rfl
    | cons next =>
      have hlt : head < next := hs.1 next (.head _)
      have ht := ih hs.2
      simp only [tail_cons, zip_cons_cons, any_cons] at ht ⊢
      rw [ht]
      simpa using hlt

theorem decodeHeads_encodeHeads (automerge : Automerge) (document : Document)
    (documentId : DocumentId) :
    decodeHeads documentId (encodeHeads (automerge.getHeads document)) =
      (.ok (automerge.getHeads document) : Except (StoreError Key) (List ChangeHash)) := by
  unfold encodeHeads
  rw [canonicalHeads_getHeads]
  have hl := length_flatMap_digestBytes (automerge.getHeads document)
  have hm : ((automerge.getHeads document).flatMap digestBytes).length % HASH_BYTES = 0 := by
    rw [hl]
    exact Nat.mul_mod_right _ _
  have hd : ((automerge.getHeads document).flatMap digestBytes).length / HASH_BYTES =
      (automerge.getHeads document).length := by
    rw [hl]
    exact Nat.mul_div_cancel_left _ (by decide)
  have hr := readDigests_flatMap _ (automerge.getHeads document) (Nat.le_refl _)
  unfold decodeHeads
  rw [if_neg (fun hne => hne hm), hd, hr]
  simp [any_zip_tail (Automerge.getHeads_sorted document)]

theorem getHeads_eq_of_headsHash (backend : Backend Key)
    (he : backend.headsHash (backend.getHeads first) = backend.headsHash (backend.getHeads
      second)) : backend.getHeads first = backend.getHeads second := by
  have hb := backend.sha256_injective he
  have hd := @decodeHeads_encodeHeads Key backend.toAutomerge first 0
  rw [hb, decodeHeads_encodeHeads] at hd
  exact (Except.ok.inj hd).symm

theorem rawBytes_injective (backend : Backend Key) : Function.Injective backend.rawBytes := by
  intro first second he
  have hc := backend.changeOf_rawBytes first
  rw [he, backend.changeOf_rawBytes] at hc
  exact (Except.ok.inj hc).symm

section Chunks

variable [LinearOrder Key] (backend : Backend Key)

def Chunkless (database : Database Key) (documentId : DocumentId) : Prop :=
  ∀ kind key, database.chunks.find ⟨documentId, kind, key⟩ = none

-- The chunks of a document are those of the image, each under its own key.
structure Chunks (database : Database Key) (documentId : DocumentId) (image : Image) : Prop where
  loads : backend.load image.bytes = .ok image.snapshot
  snapshots : ∀ key row, database.chunks.find ⟨documentId, .Snapshot, key⟩ = some row ↔
    key = backend.headsHash (backend.getHeads image.snapshot) ∧
      row = ⟨backend.sha256 image.bytes, image.bytes⟩
  incrementals : ∀ key row, database.chunks.find ⟨documentId, .Incremental, key⟩ = some row ↔
    ∃ change ∈ image.pending, key = backend.sha256 (backend.rawBytes change) ∧
      row = ⟨key, backend.rawBytes change⟩

-- The changes stored one by one are taken in any order on top of the snapshot.
def Accepts (image : Image) : Prop :=
  ∀ document change, image.snapshot ⊆ document → document ⊆ image.total → change ∈ image.pending →
    backend.applyChanges document {change} = .ok (document ∪ {change})

-- `Shows database documentId view`: what the tables hold for a document.
def Shows (database : Database Key) (documentId : DocumentId) : View → Prop
  | .Absent => database.documents.find documentId = none ∧ Chunkless database documentId
  | .Broken => Chunkless database documentId ∧ ∃ row document,
      database.documents.find documentId = some row ∧
        row.durableHeads = encodeHeads (backend.getHeads document)
  | .Stored sequence applicationState image =>
    database.documents.find documentId =
      some ⟨sequence, encodeHeads (backend.getHeads image.total), applicationState⟩ ∧
    Chunks backend database documentId image ∧ Accepts backend image

variable {backend} {database : Database Key} {documentId : DocumentId} {sequence : Nat}

theorem mem_chunkRows {id : ChunkId Key} : (id, row) ∈ chunkRows database documentId kind ↔
      id.documentId = documentId ∧ id.kind = kind ∧ database.chunks.find id = some row := by
  unfold chunkRows
  rw [mem_insertionSort, mem_filter, ← Table.find_eq_some]
  simp only [decide_eq_true_eq]
  tauto

theorem nodup_chunkRows (kind : ChunkKind) : (chunkRows database documentId kind).Nodup :=
  (perm_insertionSort _ _).nodup_iff.mpr (database.chunks.nodup.of_map.filter _)

theorem chunkRows_of_chunkless (hc : Chunkless database documentId) (kind : ChunkKind) :
    chunkRows database documentId kind = [] := by
  refine eq_nil_iff_forall_not_mem.mpr fun ⟨⟨id, other, key⟩, row⟩ hm => ?_
  obtain ⟨hid, _, hf⟩ := mem_chunkRows.mp hm
  subst hid
  rw [hc other key] at hf
  cases hf

theorem chunkRows_snapshot (hc : Chunks backend database documentId image) :
    chunkRows database documentId .Snapshot =
      [(⟨documentId, .Snapshot, backend.headsHash (backend.getHeads image.snapshot)⟩,
        ⟨backend.sha256 image.bytes, image.bytes⟩)] := by
  refine perm_singleton.mp ((perm_ext_iff_of_nodup (nodup_chunkRows _) (nodup_singleton _)).mpr ?_)
  intro ⟨⟨id, kind, key⟩, row⟩
  rw [mem_chunkRows, mem_singleton]
  constructor
  · rintro ⟨rfl, rfl, hf⟩
    obtain ⟨hk, hr⟩ := (hc.snapshots key row).mp hf
    rw [hk, hr]
  · intro he
    cases he
    exact ⟨rfl, rfl, (hc.snapshots _ _).mpr ⟨rfl, rfl⟩⟩

theorem loadChunk_incremental (documentId : DocumentId)
    (ha : backend.applyChanges document {change} = .ok (document ∪ {change})) :
    loadChunk backend documentId document
      (⟨documentId, .Incremental, backend.sha256 (backend.rawBytes change)⟩,
        ⟨backend.sha256 (backend.rawBytes change), backend.rawBytes change⟩) =
      .ok (document ∪ {change}) := by
  simp [loadChunk, backend.changeOf_rawBytes, ha, Except.mapError]

theorem foldlM_loadChunk (ha : Accepts backend image) (rows : List (ChunkId Key × ChunkRow Key))
    (hrows : ∀ row ∈ rows, ∃ change ∈ image.pending,
      row = (⟨documentId, .Incremental, backend.sha256 (backend.rawBytes change)⟩,
        ⟨backend.sha256 (backend.rawBytes change), backend.rawBytes change⟩))
    (document : Document) (hl : image.snapshot ⊆ document) (hh : document ⊆ image.total) :
    ∃ result, rows.foldlM (loadChunk backend documentId) document = .ok result ∧
      ∀ change, change ∈ result ↔ change ∈ document ∨
        ∃ row ∈ rows, row.2.bytes = backend.rawBytes change := by
  induction rows generalizing document with
  | nil => exact ⟨document, rfl, by simp⟩
  | cons row _ ih =>
    obtain ⟨⟨change, hp, he⟩, hrest⟩ := forall_mem_cons.mp hrows
    have hs := loadChunk_incremental documentId (ha document change hl hh hp)
    have hpart : document ∪ {change} ⊆ image.total :=
      Finset.union_subset hh (Finset.singleton_subset_iff.mpr (Finset.mem_union_right _ hp))
    obtain ⟨result, hr, hm⟩ :=
      ih hrest (document ∪ {change}) (hl.trans Finset.subset_union_left) hpart
    refine ⟨result, ?_, fun other => ?_⟩
    · rw [foldlM_cons, he, hs]
      exact hr
    · have hraw : row.2.bytes = backend.rawBytes other ↔ other = change := by
        rw [he]
        exact ⟨fun hb => (rawBytes_injective backend hb).symm, fun hc => hc ▸ rfl⟩
      rw [hm other, Finset.mem_union, Finset.mem_singleton]
      simp only [mem_cons, exists_eq_or_imp]
      tauto

-- A stored document loads as the union of its chunks, a broken one does not load.
theorem loadDocument_absent (hs : Shows backend database documentId .Absent) :
    loadDocument backend database documentId = .ok none := by
  unfold loadDocument
  rw [hs.1]

theorem loadDocument_broken (hs : Shows backend database documentId .Broken) :
    loadDocument backend database documentId = .error (.MissingChunks documentId) := by
  obtain ⟨hc, _, _, hr, hh⟩ := hs
  unfold loadDocument
  rw [hr]
  simp only [hh, decodeHeads_encodeHeads, chunkRows_of_chunkless hc]
  rfl

theorem loadDocument_stored {applicationState : Bytes}
    (hs : Shows backend database documentId (.Stored sequence applicationState image)) :
    ∃ sourceChunks, loadDocument backend database documentId =
        .ok (some ⟨image.total, backend.getHeads image.total, applicationState, sequence,
          sourceChunks⟩) ∧
      ∀ kind key, (kind, key) ∈ sourceChunks ↔
        (database.chunks.find ⟨documentId, kind, key⟩).isSome := by
  obtain ⟨hr, hc, ha⟩ := hs
  have hi : ∀ row ∈ chunkRows database documentId .Incremental, ∃ change ∈ image.pending,
      row = (⟨documentId, .Incremental, backend.sha256 (backend.rawBytes change)⟩,
        ⟨backend.sha256 (backend.rawBytes change), backend.rawBytes change⟩) := by
    intro ⟨⟨id, kind, key⟩, row⟩ hm
    obtain ⟨rfl, rfl, hf⟩ := mem_chunkRows.mp hm
    obtain ⟨change, hp, rfl, hr⟩ := (hc.incrementals key row).mp hf
    exact ⟨change, hp, by rw [hr]⟩
  obtain ⟨result, hfold, hmem⟩ := foldlM_loadChunk ha _ hi image.snapshot
    (Finset.Subset.refl _) Finset.subset_union_left
  have ht : result = image.total := by
    ext change
    rw [hmem change, Image.total, Finset.mem_union]
    refine or_congr_right ⟨?_, ?_⟩
    · rintro ⟨row, hm, hb⟩
      obtain ⟨other, hp, rfl⟩ := hi row hm
      rwa [← rawBytes_injective backend hb]
    · intro hp
      exact ⟨_, mem_chunkRows.mpr ⟨rfl, rfl, (hc.incrementals _ _).mpr ⟨change, hp, rfl, rfl⟩⟩, rfl⟩
  have hall : (chunkRows database documentId .Snapshot ++
      chunkRows database documentId .Incremental).foldlM (loadChunk backend documentId) ∅ =
        .ok image.total := by
    rw [chunkRows_snapshot hc, singleton_append, ← ht]
    simp [loadChunk, Backend.loadIncremental, hc.loads, canonicalHeads_getHeads]
    exact hfold
  have hne : chunkRows database documentId .Snapshot ++
      chunkRows database documentId .Incremental ≠ [] := by
    rw [chunkRows_snapshot hc]
    exact cons_ne_nil _ _
  refine ⟨(chunkRows database documentId .Snapshot ++
    chunkRows database documentId .Incremental).map fun chunk => (chunk.1.kind, chunk.1.key),
    ?_, fun kind key => ?_⟩
  · unfold loadDocument
    rw [hr]
    simp only [decodeHeads_encodeHeads, hall, canonicalHeads_getHeads, if_neg hne]
    exact if_neg (fun h => h rfl)
  · have hrows : ∀ row, (⟨documentId, kind, key⟩, row) ∈ chunkRows database documentId .Snapshot ++
        chunkRows database documentId .Incremental ↔
          database.chunks.find ⟨documentId, kind, key⟩ = some row := by
      intro row
      rw [mem_append, mem_chunkRows, mem_chunkRows]
      cases kind <;> simp
    rw [Option.isSome_iff_exists, mem_map]
    constructor
    · rintro ⟨⟨⟨id, _, _⟩, row⟩, hm, he⟩
      cases he
      have hid : id = documentId := by
        rcases mem_append.mp hm with hm | hm <;> exact (mem_chunkRows.mp hm).1
      subst hid
      exact ⟨row, (hrows row).mp hm⟩
    · rintro ⟨row, hf⟩
      exact ⟨_, (hrows row).mpr hf, rfl⟩

def contents (backend : Backend Key) (database : Database Key) (documentId : DocumentId) :
    Except (StoreError Key) (Option (Document × List ChangeHash × Bytes × Nat)) :=
  (loadDocument backend database documentId).map (Option.map fun loaded =>
    (loaded.document, loaded.durableHeads, loaded.applicationState, loaded.sequence))

theorem contents_shows (hs : Shows backend database documentId view) :
    contents backend database documentId =
      match view with
      | .Absent => .ok none
      | .Broken => .error (.MissingChunks documentId)
      | .Stored sequence applicationState image =>
        .ok (some (image.total, backend.getHeads image.total, applicationState, sequence)) := by
  unfold contents
  cases view with
  | Absent => rw [loadDocument_absent hs]; rfl
  | Broken => rw [loadDocument_broken hs]; rfl
  | Stored =>
    obtain ⟨_, hl, _⟩ := loadDocument_stored hs
    rw [hl]
    rfl

theorem load_eq_contents (backend : Backend Key) (database : Database Key)
    (documentId : DocumentId) :
    load backend database documentId =
      (contents backend database documentId).map (Option.map fun held =>
        ⟨backend.save held.1, held.2.1, held.2.2.1, held.2.2.2⟩) := by
  unfold load contents
  cases loadDocument backend database documentId with
  | error => rfl
  | ok loaded => cases loaded <;> rfl

end Chunks

namespace View

variable (backend : Backend Key)

def missing (changes : List ChangeHash) (image : Image) : List ChangeHash :=
  (changes.eraseDups.filter fun change => change ∉ backend.getChanges image.total).filter
    fun change => change ∉ image.pending

def commit (faults : Faults) (request : CommitRequest) (view : View) :
    Except (StoreError Key) (CommitReceipt × View) := do
  sqlite faults.start
  match view with
  | .Absent => .error (.DocumentNotFound request.documentId)
  | .Broken => .error (.MissingChunks request.documentId)
  | .Stored sequence applicationState image =>
    let added := missing backend request.changes image
    if added = [] ∧ applicationState = request.applicationState then
      .ok (⟨backend.getHeads image.total, sequence, false⟩, view)
    else
      let document ← (backend.applyChanges image.total added.toFinset).mapError .Automerge
      let next ← nextSequence request.documentId sequence
      sqlite faults.finish
      .ok (⟨backend.getHeads document, next, true⟩,
        .Stored next request.applicationState
          { image with pending := image.pending ∪ added.toFinset })

def installSnapshot (faults : Faults) (documentId : DocumentId) (snapshot : Bytes)
    (heads : List ChangeHash) (applicationState : Bytes) (view : View) :
    Except (StoreError Key) (CommitReceipt × View) := do
  let candidate ← (backend.load snapshot).mapError .InvalidSuppliedSnapshot
  if backend.getHeads candidate ≠ canonicalHeads heads then
    .error .SnapshotHeadsMismatch
  else
    sqlite faults.start
    match view with
    | .Broken => .error (.MissingChunks documentId)
    | .Stored sequence state image =>
      if backend.getHeads image.total = backend.getHeads candidate ∧
          state = applicationState then
        .ok (⟨backend.getHeads candidate, sequence, false⟩, view)
      else
        .error (.InstallConflict documentId)
    | .Absent =>
      let next ← nextSequence documentId 0
      sqlite faults.finish
      .ok (⟨backend.getHeads candidate, next, true⟩,
        if snapshot = [] then .Broken else .Stored next applicationState ⟨candidate, snapshot, ∅⟩)

-- A snapshot with the heads of the whole document is the whole document, so it stays.
def compacted (image : Image) : Image where
  snapshot := image.total
  bytes := if backend.getHeads image.snapshot = backend.getHeads image.total then image.bytes
    else backend.save image.total
  pending := ∅

def compact (faults : Faults) (documentId : DocumentId) (view : View) :
    Except (StoreError Key) ((List ChangeHash × Bool) × View) := do
  sqlite faults.start
  match view with
  | .Absent => .error (.DocumentNotFound documentId)
  | .Broken => .error (.MissingChunks documentId)
  | .Stored sequence applicationState image =>
    if backend.getMissingDeps image.total [] ≠ [] then
      .ok ((backend.getHeads image.total, true), view)
    else
      sqlite faults.finish
      .ok ((backend.getHeads image.total, false),
        .Stored sequence applicationState (compacted backend image))

end View

end Nteract.Store
