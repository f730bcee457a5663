import Nteract.Automerge.Reference
import Nteract.Durability.Calls.Theorems
import Nteract.Recovery.Journal.Theorems

namespace Nteract.Durability

open Lib.Effect Recovery

variable {automerge : Automerge} {serde : ManifestSerde} {room : RoomDurability}

def RoomDurability.binding (room : RoomDurability) : Option PathBuf :=
  room.journal.map RecoveryJournal.path

-- The room is as it was, up to the marker and the bytes of its journal file.
theorem recordFailed_invisible (hf : RecordFailed serde io op room next error after) :
    after.state = { room.state with degraded := after.state.degraded } ∧
      after.binding = room.binding ∧ after.acceptingCommits = room.acceptingCommits := by
  cases op with
  | PromoteToJournal =>
    obtain ⟨hn, _, rfl⟩ := hf
    refine ⟨rfl, ?_, rfl⟩
    simp [RoomDurability.binding, RoomDurability.degrading, setDegraded, hn]
  | ArchiveAndCommitReconciledSource =>
    obtain ⟨_, _, hj, ha, rfl⟩ := hf
    refine ⟨rfl, ?_, rfl⟩
    obtain rfl | ⟨_, _, _, rfl⟩ := post_archiveAndReplace.of_error ha
    · simp [RoomDurability.binding, hj]
    · simp [RoomDurability.binding, hj]
  | _ =>
    obtain ⟨_, ⟨_, hj, ha⟩, rfl⟩ := hf
    refine ⟨rfl, ?_, rfl⟩
    simp [RoomDurability.binding, RoomDurability.degrading, setDegraded, hj,
      (post_append_path.of_error ha).1]

theorem callError_manifest (hc : CallError automerge serde io op room error after) :
    after.state.manifest = room.state.manifest := by
  cases hc with
  | rejected => rfl
  | journal _ _ hf => rw [(recordFailed_invisible hf).1]

-- A failed call publishes nothing, and an error that is not the journal's leaves the room
-- untouched.
theorem failed_commit_invisible {io : JournalIo} {op : Operation} {error : RoomDurabilityError}
    {after : RoomDurability} (hc : call automerge serde io op room = .error error after) :
    after.state.manifest = room.state.manifest ∧
      after.state.durableSnapshot = room.state.durableSnapshot ∧
      after.state.hasDurableRecord = room.state.hasDurableRecord ∧
      after.binding = room.binding ∧ after.acceptingCommits = room.acceptingCommits ∧
      ((∀ journalError, error ≠ .Journal journalError) → after = room) := by
  cases call_error hc with
  | rejected => exact ⟨rfl, rfl, rfl, rfl, rfl, fun _ => rfl⟩
  | journal _ _ hf =>
    obtain ⟨hs, hb, ha⟩ := recordFailed_invisible hf
    rw [hs]
    exact ⟨rfl, rfl, rfl, hb, ha, fun hne => absurd rfl (hne _)⟩

-- A generation that was never staged is refused, and the journal is not even created.
theorem failed_commit_invisible_generation :
    call (referenceAutomerge fun _ => []) sampleSerde ⟨.works 1, ⟨.error .EmptySnapshot, .Replaced,
        true, none, true⟩⟩ (.CommitSourceReady 7)
        (journaled (.new "/docs/a.recovery" none) 1 none 0 3 (referenceSave ∅)) =
      .error (.InvalidSnapshot "source generation 7 cannot complete durable generation 3")
        (journaled (.new "/docs/a.recovery" none) 1 none 0 3 (referenceSave ∅)) ∧
    (journaled (.new "/docs/a.recovery" none) 1 none 0 3 (referenceSave ∅)).binding =
      some "/docs/a.recovery" := by
  have hc : call (referenceAutomerge fun _ => []) sampleSerde ⟨.works 1, ⟨.error .EmptySnapshot,
      .Replaced, true, none, true⟩⟩ (.CommitSourceReady 7)
      (journaled (.new "/docs/a.recovery" none) 1 none 0 3 (referenceSave ∅)) =
      .error (.InvalidSnapshot "source generation 7 cannot complete durable generation 3")
        (journaled (.new "/docs/a.recovery" none) 1 none 0 3 (referenceSave ∅)) := rfl
  exact ⟨hc, (failed_commit_invisible hc).2.2.2.1⟩

end Nteract.Durability
