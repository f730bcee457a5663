import Nteract.Automerge

namespace Nteract

open Lib.Bytes Recovery List

-- A save is the magic number and the hashes in order. Nothing is refused.

def DOCUMENT_MAGIC : Bytes := [133, 111, 74, 131]

def referenceSave (document : Document) : Bytes :=
  DOCUMENT_MAGIC ++ (sortedList document).flatMap digestBytes

def referenceLoad (bytes : Bytes) : Except String Document :=
  if bytes.take 4 = DOCUMENT_MAGIC then
    .ok (readDigests bytes.length (bytes.drop 4)).toFinset
  else
    .error "unable to parse chunk"

theorem referenceLoad_save (document : Document) :
    referenceLoad (referenceSave document) = .ok document := by
  have hl : (sortedList document).length ≤ (referenceSave document).length := by
    have hf : ∀ digests : List Digest, digests.length ≤ (digests.flatMap digestBytes).length := by
      intro digests
      induction digests with
      | nil => exact Nat.le_refl _
      | cons =>
        rw [flatMap_cons, length_append, digestBytes_length, length_cons]
        omega
    rw [referenceSave, length_append]
    exact Nat.le_trans (hf _) (Nat.le_add_left _ _)
  have hd : (referenceSave document).drop 4 = (sortedList document).flatMap digestBytes :=
    drop_left' rfl
  have ht : (referenceSave document).take 4 = DOCUMENT_MAGIC := take_left' rfl
  rw [referenceLoad, if_pos ht, hd, readDigests_flatMap _ _ hl]
  congr 1
  ext hash
  rw [mem_toFinset, mem_sortedList]

def referenceAutomerge (deps : ChangeHash → List ChangeHash) : Automerge where
  deps := deps
  save := referenceSave
  load := referenceLoad
  refuses _ _ := none
  load_save := referenceLoad_save

end Nteract
