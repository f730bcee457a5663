import Nteract.Lib.Causal
import Nteract.Recovery.Manifest

namespace Nteract

open Lib.Bytes Lib.Causal Recovery Finset

def sortedList (items : Finset ChangeHash) : List ChangeHash :=
  Quot.liftOn items.val sortUnstable fun _ _ hp => sortUnstable_eq_of_perm hp

theorem mem_sortedList : item ∈ sortedList items ↔ item ∈ items := by
  obtain ⟨⟨_⟩, _⟩ := items
  exact List.mem_insertionSort (· ≤ ·)

theorem sortedList_sorted (items : Finset ChangeHash) : (sortedList items).Pairwise (· < ·) := by
  obtain ⟨⟨list⟩, hn⟩ := items
  have hnodup : (sortUnstable list).Nodup := (sortUnstable_perm list).nodup_iff.mpr hn
  have hle : (sortUnstable list).Pairwise (· ≤ ·) := List.pairwise_insertionSort _ list
  exact (hle.and hnodup).imp fun h => lt_of_le_of_ne h.1 h.2

theorem sortedList_injective : Function.Injective sortedList := by
  intro first second he
  ext item
  rw [← mem_sortedList, he, mem_sortedList]

-- A document is the set of changes it has received. A change is known by its hash.
abbrev Document := Finset ChangeHash

-- Automerge as the daemon uses it. `refuses` is the error of apply_changes. A saved document loads
-- as itself, queued changes included.
structure Automerge where
  deps : ChangeHash → List ChangeHash
  save : Document → Bytes
  load : Bytes → Except String Document
  refuses : Document → Finset ChangeHash → Option String
  load_save : ∀ document, load (save document) = .ok document

namespace Automerge

variable (automerge : Automerge)

-- The applied changes: the causally closed part of what was received.
def getChanges (document : Document) : Finset ChangeHash := settled automerge.deps document

def getChangeByHash (document : Document) (hash : ChangeHash) : Bool :=
  hash ∈ automerge.getChanges document

def getHeads (document : Document) : List ChangeHash :=
  sortedList (frontier automerge.deps document)

def getMissingDeps (document : Document) (heads : List ChangeHash) : List ChangeHash :=
  let queue := document \ automerge.getChanges document
  let wanted := (queue.biUnion fun change => (automerge.deps change).toFinset) ∪ heads.toFinset
  sortedList ((wanted \ automerge.getChanges document) \ queue)

-- Changes already received are skipped; the rest is applied or queued.
def applyChanges (document : Document) (changes : Finset ChangeHash) : Except String Document :=
  if changes ⊆ document then
    .ok document
  else
    match automerge.refuses document (changes \ document) with
    | some error => .error error
    | none => .ok (document ∪ changes)

variable {automerge}

theorem applyChanges_eq_ok (ha : automerge.applyChanges document changes = .ok result) :
    result = document ∪ changes := by
  unfold applyChanges at ha
  split at ha
  · rename_i hs
    cases ha
    exact (union_eq_left.mpr hs).symm
  · split at ha
    · cases ha
    · cases ha
      rfl

theorem applyChanges_of_subset (hs : changes ⊆ document) :
    automerge.applyChanges document changes = .ok document :=
  if_pos hs

theorem applyChanges_congr (he : changes \ document = other \ document) :
    automerge.applyChanges document changes = automerge.applyChanges document other := by
  have hs : changes ⊆ document ↔ other ⊆ document := by
    rw [← sdiff_eq_empty_iff_subset, ← sdiff_eq_empty_iff_subset, he]
  have hu : document ∪ changes = document ∪ other := by
    rw [← union_sdiff_self_eq_union, he, union_sdiff_self_eq_union]
  unfold applyChanges
  rw [he, hu]
  simp [hs]

theorem getChanges_subset (document : Document) : automerge.getChanges document ⊆ document :=
  settled_subset document

theorem getChanges_mono (hs : document ⊆ larger) :
    automerge.getChanges document ⊆ automerge.getChanges larger :=
  settled_mono hs

theorem mem_getHeads_applied {hash : ChangeHash} (hh : hash ∈ automerge.getHeads document) :
    hash ∈ automerge.getChanges document :=
  frontier_subset document (mem_sortedList.mp hh)

theorem getChanges_eq_of_getHeads_eq
    (he : automerge.getHeads document = automerge.getHeads larger) :
    automerge.getChanges document = automerge.getChanges larger :=
  settled_eq_of_frontier_eq (sortedList_injective he)

theorem getHeads_sorted (document : Document) : (automerge.getHeads document).Pairwise (· < ·) :=
  sortedList_sorted _

-- Without a cycle, a document that waits for nothing has applied all it received.
theorem getMissingDeps_eq_nil
    (hw : WellFounded fun dep change : ChangeHash => dep ∈ automerge.deps change) :
    automerge.getMissingDeps document [] = [] ↔ automerge.getChanges document = document := by
  have hmem : ∀ dep, dep ∈ automerge.getMissingDeps document [] ↔
      (∃ change ∈ document, change ∉ automerge.getChanges document ∧
        dep ∈ automerge.deps change) ∧ dep ∉ document := by
    intro dep
    have hs : dep ∈ automerge.getChanges document → dep ∈ document :=
      fun hd => getChanges_subset document hd
    simp only [getMissingDeps, mem_sortedList, mem_sdiff, mem_union, mem_biUnion, List.mem_toFinset]
    grind
  constructor
  · intro he
    refine Subset.antisymm (getChanges_subset document) fun change => ?_
    induction change using hw.induction with
    | _ change ih =>
      intro hc
      by_contra hq
      refine hq (mem_settled.mpr ⟨hc, fun dep hd => ih dep hd ?_⟩)
      by_contra ho
      have hm := (hmem dep).mpr ⟨⟨change, hc, hq, hd⟩, ho⟩
      rw [he] at hm
      cases hm
  · intro he
    refine List.eq_nil_iff_forall_not_mem.mpr fun dep hd => ?_
    obtain ⟨⟨_, hc, hq, _⟩, _⟩ := (hmem dep).mp hd
    rw [he] at hq
    exact hq hc

end Automerge

end Nteract
