import Nteract.BlobStore

namespace Nteract.BlobStore

open Lib Option

def Event.target (digest : Bytes → Hash) : Event → Option Hash
  | .Put data _ _ _ _ _ => some (digest data)
  | .Prime _ => none
  | .PutParts _ _ _ hash _ _ _ => some hash
  | .DeleteIfOlderThan hash _ _ => some hash
  | .DeleteIfEphemeral hash _ => some hash
  | .Release hash _ _ => some hash

def Event.Puts (digest : Bytes → Hash) (hash : Hash) : Event → Prop
  | .Put data _ _ _ _ _ => digest data = hash
  | .PutParts _ _ _ other _ _ _ => other = hash
  | _ => False

-- In the last case a multipart put takes the sidecar it could not replace for its own.
inductive Sidecar : Event → Option BlobMeta → BlobMeta → Prop
  | Created {data mediaType durability lease now fault} :
      Sidecar (.Put data mediaType durability lease now fault) none
        ⟨mediaType, data.length, now, durability,
          leaseTable (if durability = .Durable then none else lease)⟩
  | Renewed {data mediaType durability lease now fault} {record : BlobMeta} :
      Sidecar (.Put data mediaType durability lease now fault) (some record)
        (record.renew mediaType now durability (if durability = .Durable then none else lease))
  | Uploaded {parts mediaType size hash durability now fault} :
      Sidecar (.PutParts parts mediaType size hash durability now fault) none
        ⟨mediaType, parts.flatten.length, now, durability, .empty⟩
  | Adopted {parts mediaType size hash durability now fault} {record : BlobMeta} :
      Sidecar (.PutParts parts mediaType size hash durability now fault) (some record)
        (record.adopt mediaType now durability)
  | Kept {parts mediaType size hash durability now fault} {record : BlobMeta}
      (hfault : fault.record = true) :
      Sidecar (.PutParts parts mediaType size hash durability now fault) (some record) record

def Event.Removes (hash : Hash) (record : BlobMeta) : Event → Prop
  | .DeleteIfOlderThan other cutoff _ => other = hash ∧ record.createdAt < cutoff
  | .DeleteIfEphemeral other _ =>
    other = hash ∧ record.durability = .Ephemeral ∧ record.leased = false
  | .Release other lease _ =>
    other = hash ∧ record.durability = .Ephemeral ∧
      record.ephemeralLeases.find lease.owner = some lease.generation ∧
      ∀ owner, owner ≠ lease.owner → record.ephemeralLeases.find owner = none
  | _ => False

-- All that is proved about the files of the store is read off these cases.
inductive SlotStep (digest : Bytes → Hash) (hash : Hash) (slot : Slot) :
    Event → Reply → Slot → Prop
  | Untouched {event reply} (hstored : event.Puts digest hash → reply ≠ .Stored hash)
      (hdeleted : event.target digest = some hash → reply ≠ .Deleted true) :
      SlotStep digest hash slot event reply slot
  | Refused {event message blob} (hput : event.Puts digest hash)
      (hblob : ∀ bytes, blob = some bytes → slot.blob = some bytes ∨ digest bytes = hash)
      (hrecord : slot.record.isSome → slot.blob.isSome → blob.isSome) :
      SlotStep digest hash slot event (.Failed message) ⟨blob, slot.record⟩
  | Stored {event blob record} (hput : event.Puts digest hash)
      (hblob : slot.blob = some blob ∨ digest blob = hash)
      (hrecord : Sidecar event slot.record record) :
      SlotStep digest hash slot event (.Stored hash) ⟨some blob, some record⟩
  | Torn {event message record} (hrecord : slot.record = some record)
      (hremoves : event.Removes hash record) :
      SlotStep digest hash slot event (.Failed message) ⟨none, some record⟩
  | Removed {event record} (hrecord : slot.record = some record)
      (hremoves : event.Removes hash record) :
      SlotStep digest hash slot event (.Deleted true) .vacant
  | Lapsed {lease fault record} (hrecord : slot.record = some record)
      (hephemeral : record.durability = .Ephemeral)
      (hlease : record.ephemeralLeases.find lease.owner = some lease.generation) :
      SlotStep digest hash slot (.Release hash lease fault) (.Deleted false)
        ⟨slot.blob, some { record with
          ephemeralLeases := record.ephemeralLeases.remove lease.owner }⟩

variable {digest : Bytes → Hash} {hash : Hash}

def Reply.ofPut : Except String Hash → Reply
  | .ok hash => .Stored hash
  | .error message => .Failed message

def Reply.ofDelete : Except String Bool → Reply
  | .ok removed => .Deleted removed
  | .error message => .Failed message

theorem SlotStep.refused (hp : event.Puts digest hash) (message : String) :
    SlotStep digest hash slot event (.Failed message) slot :=
  .Refused hp (fun _ h => .inl h) fun _ h => h

theorem putDisk_slot (slot : Slot) (hd : digest data = hash) (mediaType : String)
    (durability : Durability) (lease : Option Lease) (now : Nat) (fault : Fault) :
    SlotStep digest hash slot (.Put data mediaType durability lease now fault)
      (.ofPut ((putDisk slot data mediaType durability
        (if durability = .Durable then none else lease) now fault).2.map fun _ => hash))
      (putDisk slot data mediaType durability (if durability = .Durable then none else lease) now
        fault).1 := by
  obtain ⟨blob, record⟩ := slot
  have hp : (Event.Put data mediaType durability lease now fault).Puts digest hash := hd
  unfold putDisk
  split
  · exact .refused hp _
  cases record with
  | some =>
    have hb : blob = some (blob.getD data) ∨ digest (blob.getD data) = hash := by
      cases blob with
      | none => exact .inr hd
      | some => exact .inl rfl
    dsimp only [putExisting]
    split
    · exact .refused hp _
    split
    · exact .refused hp _
    split
    · exact .Refused hp (by rintro _ ⟨rfl⟩; exact hb) fun _ _ => rfl
    · exact .Stored hp hb .Renewed
  | none =>
    dsimp only [putNew]
    split
    · exact .refused hp _
    rename_i hw
    split
    · split
      · exact .Refused hp (by grind) nofun
      · exact .Refused hp nofun nofun
    · cases hb : fault.blob with
      | false => exact .Stored hp (.inr hd) .Created
      | true =>
        obtain ⟨_, rfl⟩ := ne_none_iff_exists'.mp (by simpa [hb] using hw)
        exact .Stored hp (.inl rfl) .Created

theorem putParts_slot (slot : Slot) (parts : List Bytes) (mediaType : String) (size : Nat)
    (durability : Durability) (now : Nat) (fault : Fault) :
    SlotStep digest hash slot (.PutParts parts mediaType size hash durability now fault)
      (.ofPut (putPartFilesWithHash digest slot parts mediaType size hash durability now fault).2)
      (putPartFilesWithHash digest slot parts mediaType size hash durability now fault).1 := by
  have hp : (Event.PutParts parts mediaType size hash durability now fault).Puts digest hash := rfl
  unfold putPartFilesWithHash
  split
  · exact .refused hp _
  split
  · exact .refused hp _
  split
  · exact .refused hp _
  dsimp only
  split
  · rename_i blob adopted hb ha
    obtain ⟨_, hr, rfl⟩ := map_eq_some_iff.mp ha
    split
    · exact .refused hp _
    · exact .Stored hp (.inl hb) (hr ▸ .Adopted)
  split
  · exact .refused hp _
  split
  · exact .refused hp _
  split
  · exact .refused hp _
  rename_i hd
  unfold publishParts
  split
  · exact .refused hp _
  rename_i hw
  -- the blob is the old one or the parts
  obtain ⟨blob, hb, hf⟩ : ∃ blob,
      (if fault.blob then slot.blob else some parts.flatten) = some blob ∧
        (slot.blob = some blob ∨ digest blob = hash) := by
    cases hfault : fault.blob with
    | false => exact ⟨_, rfl, .inr (not_not.mp hd)⟩
    | true =>
      obtain ⟨kept, hk⟩ := ne_none_iff_exists'.mp (by simpa [hfault] using hw)
      exact ⟨kept, hk, .inl hk⟩
  rw [hb]
  cases hr : slot.record with
  | some =>
    split
    · rename_i hfault
      exact .Stored hp hf (hr ▸ .Kept hfault)
    · exact .Stored hp hf (by rw [hr]; exact .Adopted)
  | none =>
    split
    · have hn : slot = ⟨slot.blob, none⟩ := by rw [← hr]
      rw [hn]
      simp only [isSome_none, Bool.false_eq_true, if_false]
      split
      · exact .Refused hp (by rintro _ ⟨rfl⟩; exact hf) nofun
      · exact .Refused hp nofun nofun
    · exact .Stored hp hf (by rw [hr]; exact .Uploaded)

theorem kept_slot (hp : ¬event.Puts digest hash) (hr : reply ≠ .Deleted true) :
    SlotStep digest hash slot event reply slot :=
  .Untouched (fun h => absurd h hp) fun _ => hr

theorem removeFiles_slot (hrecord : slot.record = some record)
    (hr : event.Removes hash record) (fault : Fault) :
    SlotStep digest hash slot event (.ofDelete (removeFiles slot record fault).2)
      (removeFiles slot record fault).1 := by
  have hp : ¬event.Puts digest hash := by cases event <;> first | exact id | cases hr
  unfold removeFiles
  split
  · exact kept_slot hp nofun
  split
  · exact .Torn hrecord hr
  · exact .Removed hrecord hr

theorem deleteIfOlderThan_slot (slot : Slot) (cutoff : Nat) (fault : Fault) :
    SlotStep digest hash slot (.DeleteIfOlderThan hash cutoff fault)
      (.ofDelete (deleteIfOlderThan slot cutoff fault).2)
      (deleteIfOlderThan slot cutoff fault).1 := by
  unfold deleteIfOlderThan
  split
  · exact kept_slot nofun nofun
  split
  · exact kept_slot nofun nofun
  rename_i record hrecord
  split
  · exact kept_slot nofun nofun
  split
  · exact kept_slot nofun nofun
  rename_i ho
  have hr : (Event.DeleteIfOlderThan hash cutoff fault).Removes hash record :=
    ⟨rfl, Nat.lt_of_not_le ho⟩
  split
  · exact kept_slot nofun nofun
  split
  · exact .Torn hrecord hr
  · exact .Removed hrecord hr

theorem deleteIfEphemeral_slot (slot : Slot) (fault : Fault) :
    SlotStep digest hash slot (.DeleteIfEphemeral hash fault)
      (.ofDelete (deleteIfEphemeral slot fault).2) (deleteIfEphemeral slot fault).1 := by
  unfold deleteIfEphemeral
  split
  · exact kept_slot nofun nofun
  split
  · exact kept_slot nofun nofun
  rename_i record hrecord
  split
  · exact kept_slot nofun nofun
  split
  · exact kept_slot nofun nofun
  · have hr : (Event.DeleteIfEphemeral hash fault).Removes hash record := ⟨rfl, by simp_all⟩
    exact removeFiles_slot hrecord hr fault

theorem find_of_entries_nil {leases : Table String Nat} (he : leases.entries = [])
    (owner : String) : leases.find owner = none := by
  simp [Table.find, he]

theorem release_slot (slot : Slot) (lease : Lease) (fault : Fault) :
    SlotStep digest hash slot (.Release hash lease fault)
      (.ofDelete (releaseEphemeralLease slot lease fault).2)
      (releaseEphemeralLease slot lease fault).1 := by
  unfold releaseEphemeralLease
  split
  · exact kept_slot (fun h => by cases h) (fun h => by cases h)
  split
  · exact kept_slot (fun h => by cases h) (fun h => by cases h)
  rename_i record hr
  split
  · exact kept_slot (fun h => by cases h) (fun h => by cases h)
  split
  · exact kept_slot (fun h => by cases h) (fun h => by cases h)
  have hl : record.durability = .Ephemeral ∧
      record.ephemeralLeases.find lease.owner = some lease.generation := by simp_all
  dsimp only
  split
  · rename_i he
    have hremoves : (Event.Release hash lease fault).Removes hash record := by
      refine ⟨rfl, hl.1, hl.2, fun owner ho => ?_⟩
      have hn := find_of_entries_nil (List.isEmpty_iff.mp he) owner
      rwa [Table.find_remove, if_neg ho] at hn
    exact removeFiles_slot hr hremoves fault
  split
  · exact kept_slot (fun h => by cases h) (fun h => by cases h)
  · exact .Lapsed hr hl.1 hl.2

variable {store : Store} {event : Event}

theorem target_of_puts (hp : event.Puts digest hash) : event.target digest = some hash := by
  cases event <;> first | exact congrArg some hp | cases hp

theorem setSlot_step (ht : event.target digest = some target)
    (hstep : SlotStep digest target (store.disk target) event reply slot) (hash : Hash) :
    SlotStep digest hash (store.disk hash) event reply ((store.setSlot target slot).disk hash) := by
  dsimp only [Store.setSlot]
  by_cases hs : hash = target
  · subst hs
    rwa [Function.update_self]
  · rw [Function.update_of_ne hs]
    have ho : event.target digest ≠ some hash := by
      rw [ht]
      exact fun h => hs (some.inj h).symm
    exact .Untouched (fun h => absurd (target_of_puts h) ho) fun h => absurd h ho

theorem finishDelete_step (ht : event.target digest = some target)
    (hs : SlotStep digest target (store.disk target) event (.ofDelete outcome.2) outcome.1)
    (hp : ¬event.Puts digest hash) :
    let result := if validateHash target then store.finishDelete target outcome
      else (store, .Deleted false)
    SlotStep digest hash (store.disk hash) event result.2 (result.1.disk hash) := by
  obtain ⟨_, result⟩ := outcome
  split
  · have hset := setSlot_step ht hs hash
    rcases result with _ | _ | _ <;> exact hset
  · exact kept_slot hp nofun

theorem perform_slot (store : Store) (event : Event) (hash : Hash) :
    SlotStep digest hash (store.disk hash) event (store.perform digest event).2
      ((store.perform digest event).1.disk hash) := by
  cases event with
  | Put data mediaType durability lease now fault =>
    have hs := setSlot_step rfl (putDisk_slot (store.disk (digest data)) rfl mediaType durability lease now
      fault) hash
    unfold Store.perform Store.put
    dsimp only
    split
    · exact .Untouched nofun nofun
    generalize putDisk _ _ _ _ _ _ _ = outcome at hs
    obtain ⟨_, _ | _⟩ := outcome
    · exact hs
    · dsimp only
      split <;> exact hs
  | Prime =>
    unfold Store.perform
    dsimp only
    split <;> exact .Untouched nofun nofun
  | PutParts parts mediaType size expected durability now fault =>
    have hs := setSlot_step rfl (@putParts_slot digest expected (store.disk expected) parts mediaType size
      durability now fault) hash
    unfold Store.perform
    dsimp only
    generalize putPartFilesWithHash _ _ _ _ _ _ _ _ _ = outcome at hs
    obtain ⟨_, _ | _⟩ := outcome
    · exact hs
    · exact hs
  | DeleteIfOlderThan =>
    exact finishDelete_step rfl (deleteIfOlderThan_slot ..) nofun
  | DeleteIfEphemeral =>
    exact finishDelete_step rfl (deleteIfEphemeral_slot ..) nofun
  | Release => exact finishDelete_step rfl (release_slot ..) nofun

end Nteract.BlobStore
