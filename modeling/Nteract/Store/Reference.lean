import Nteract.Automerge.Reference
import Nteract.Store

namespace Nteract.Store

open Lib Lib.Bytes Recovery List

-- A change is written as its hash, the empty input is the empty document, and a hash is the number
-- that the bytes spell with a final mark.

def referenceHash (bytes : Bytes) : Nat := leNat (bytes ++ [1])

theorem referenceHash_pos (bytes : Bytes) : 0 < referenceHash bytes := by
  unfold referenceHash
  induction bytes with
  | nil => decide
  | cons =>
    rw [cons_append, leNat]
    omega

theorem referenceHash_injective : Function.Injective referenceHash := by
  intro first
  induction first with
  | nil =>
    intro second he
    cases second with
    | nil => rfl
    | cons _ second =>
      have hp := referenceHash_pos second
      unfold referenceHash at he hp
      rw [cons_append, leNat] at he
      have ho : leNat ([] ++ [1]) = 1 := by decide
      omega
  | cons byte first ih =>
    intro second he
    cases second with
    | nil =>
      have hp := referenceHash_pos first
      unfold referenceHash at he hp
      rw [cons_append, leNat] at he
      have ho : leNat ([] ++ [1]) = 1 := by decide
      omega
    | cons other second =>
      unfold referenceHash at he
      rw [cons_append, cons_append, leNat, leNat] at he
      have hb := byte.toNat_lt
      have hother := other.toNat_lt
      have hh : byte = other := UInt8.toNat_inj.mp (by omega)
      have ht : referenceHash first = referenceHash second := by
        unfold referenceHash
        omega
      rw [hh, ih ht]

-- Every change but the first depends on the first.
def rootedDeps (change : ChangeHash) : List ChangeHash := if change = 0 then [] else [0]

theorem rootedDeps_acyclic :
    WellFounded fun dep change : ChangeHash => dep ∈ rootedDeps change := by
  have hr : Acc (fun dep change : ChangeHash => dep ∈ rootedDeps change) 0 :=
    .intro 0 fun dep hd => by simp [rootedDeps] at hd
  refine ⟨fun change => .intro change fun dep hd => ?_⟩
  unfold rootedDeps at hd
  split at hd
  · cases hd
  · rw [mem_singleton.mp hd]
    exact hr

theorem referenceSave_ne (document : Document) : referenceSave document ≠ [] :=
  cons_ne_nil _ _

def referenceBackend : Backend Nat where
  deps := rootedDeps
  save := referenceSave
  load bytes := if bytes = [] then .ok ∅ else referenceLoad bytes
  refuses _ _ := none
  load_save document := (if_neg (referenceSave_ne document)).trans (referenceLoad_save document)
  rawBytes := digestBytes
  changeOf bytes := .ok (readDigest bytes)
  sha256 := referenceHash
  changeOf_rawBytes change := by rw [readDigest_digestBytes]
  sha256_injective := referenceHash_injective
  acyclic := rootedDeps_acyclic
  rawBytes_ne change he := by
    have hlen := digestBytes_length change
    rw [he] at hlen
    cases hlen
  save_ne := referenceSave_ne
  refuses_mono _ _ _ _ _ _ := rfl

end Nteract.Store
