import Nteract.BlobStore.Steps

namespace Nteract.BlobStore

open Lib Option Table

variable {digest : Bytes → Hash} {hash : Hash} {slot : Slot} {event : Event} {record : BlobMeta}
  {owner : String} {generation : Nat}

theorem leased_of_find (hf : record.ephemeralLeases.find owner = some generation) :
    record.leased = true := by
  by_contra hleased
  have hn := find_of_entries_nil (List.isEmpty_iff.mp (by simpa [BlobMeta.leased] using hleased))
    owner
  rw [hf] at hn
  cases hn

theorem not_leased_of_empty (he : record.ephemeralLeases = .empty) : record.leased = false := by
  simp [BlobMeta.leased, he, empty]

theorem renew_cases (record : BlobMeta) (mediaType : String) (now : Nat) (durability : Durability)
    (lease : Option Lease) :
    let renewed := record.renew mediaType now durability lease
    renewed.durability = .Durable ∨ record.durability = .Ephemeral ∧ lease.isSome = record.leased ∧
        renewed.ephemeralLeases = match lease with
          | some lease => record.ephemeralLeases.set lease.owner
              (max ((record.ephemeralLeases.find lease.owner).getD 0) lease.generation)
          | none => record.ephemeralLeases := by
  intro renewed
  by_cases hd : renewed.durability = .Durable
  · exact .inl hd
  have hm : (if (decide (record.durability = .Ephemeral) && decide (durability = .Ephemeral) &&
        (lease.isSome != record.leased)) = true then .Durable
      else mergedDurability record.durability durability) ≠ .Durable := hd
  refine .inr ⟨?_, ?_, if_neg hd⟩ <;>
    cases hr : record.durability <;> cases durability <;> simp_all [mergedDurability]

-- The durable sidecars and those with a lease of the owner that is not older.
def BlobMeta.Held (record : BlobMeta) (owner : String) (generation : Nat) : Prop :=
  record.durability = .Durable ∨
    ∃ later, record.ephemeralLeases.find owner = some later ∧ generation ≤ later

def BlobMeta.Free (record : BlobMeta) : Prop :=
  record.durability = .Durable ∨ record.leased = false

def Event.lease : Event → Option Lease
  | .Put _ _ .Ephemeral lease _ _ => lease
  | _ => none

def Event.Unmanaged : Event → Prop
  | .Put _ _ durability lease _ _ => durability = .Durable ∨ lease = none
  | .PutParts _ _ _ _ _ _ _ => True
  | _ => False

-- A multipart put over an older sidecar gets its own sidecar written.
def Event.Recorded (old : Option BlobMeta) : Event → Prop
  | .PutParts _ _ _ _ _ _ fault => fault.record = true → old = none
  | _ => True

theorem adopt_durable (ho : record.durability = .Durable ∨ record.leased = true)
    (mediaType : String) (now : Nat) (durability : Durability) :
    (record.adopt mediaType now durability).durability = .Durable := by
  unfold BlobMeta.adopt
  grind [mergedDurability]

theorem owned_of_held (hh : record.Held owner generation) :
    record.durability = .Durable ∨ record.leased = true :=
  hh.imp_right fun ⟨_, hf, _⟩ => leased_of_find hf

section

variable (hd : record.durability = .Durable)
include hd

theorem not_removes_durable (ho : ∀ cutoff fault, event ≠ .DeleteIfOlderThan hash cutoff fault) :
    ¬event.Removes hash record := by
  cases event <;> simp_all [Event.Removes]

theorem renew_durable (mediaType : String) (now : Nat)
    (durability : Durability) (lease : Option Lease) :
    (record.renew mediaType now durability lease).durability = .Durable := by
  refine (renew_cases ..).resolve_right fun ho => ?_
  rw [hd] at ho
  cases ho.1

theorem durable_sidecar (hs : Sidecar event (some record) next) : next.durability = .Durable := by
  cases hs with
  | Renewed => exact renew_durable hd ..
  | Adopted => exact adopt_durable (.inl hd) ..
  | Kept => exact hd

end

theorem held_sidecar (hh : record.Held owner generation)
    (hs : Sidecar event (some record) next) : next.Held owner generation := by
  cases hs with
  | @Renewed _ mediaType durability lease now _ _ =>
    refine (renew_cases ..).imp_right ?_
    rintro ⟨he, -, hl⟩
    obtain ⟨later, hf, hle⟩ := hh.resolve_left (by simp [he])
    rw [hl]
    split
    · rename_i taken _
      by_cases ho : owner = taken.owner
      · subst ho
        exact ⟨_, by rw [find_set, if_pos rfl],
          by rw [hf]; exact Nat.le_trans hle (Nat.le_max_left ..)⟩
      · exact ⟨later, by rw [find_set, if_neg ho]; exact hf, hle⟩
    · exact ⟨later, hf, hle⟩
  | Adopted => exact .inl (adopt_durable (owned_of_held hh) ..)
  | Kept => exact hh

theorem free_renew (hb : record.leased = false) (mediaType : String) (now : Nat)
    (durability : Durability) (lease : Option Lease) :
    (record.renew mediaType now durability lease).Free := by
  refine (renew_cases ..).imp_right ?_
  rintro ⟨-, hlease, hl⟩
  cases lease with
  | none => simpa [BlobMeta.leased, hl] using hb
  | some => simp [hb] at hlease

theorem free_sidecar (hf : record.Free) (hs : Sidecar event (some record) next) : next.Free := by
  cases hs with
  | Renewed =>
    rcases hf with hd | hl
    · exact .inl (renew_durable hd ..)
    · exact free_renew hl ..
  | Adopted => exact .inr (not_leased_of_empty rfl)
  | Kept => exact hf

theorem renew_mixed (hm : lease.isSome ≠ record.leased) (mediaType : String) (now : Nat)
    (durability : Durability) :
    (record.renew mediaType now durability lease).durability = .Durable :=
  (renew_cases ..).resolve_right fun h => hm h.2.1

theorem lease_of_unmanaged {durability : Durability} (hu : durability = .Durable ∨ lease = none) :
    (if durability = .Durable then none else lease) = none := by
  rcases hu with rfl | rfl
  · rfl
  · exact ite_self none

theorem free_of_unmanaged {old : Option BlobMeta} (hu : event.Unmanaged)
    (hr : event.Recorded old) (hs : Sidecar event old next) : next.Free := by
  cases hs with
  | Created => exact .inr (not_leased_of_empty (by rw [lease_of_unmanaged hu]; rfl))
  | @Renewed _ _ _ _ _ _ record =>
    rw [lease_of_unmanaged hu]
    cases hl : record.leased with
    | false => exact free_renew hl ..
    | true => exact .inl (renew_mixed (by simp [hl]) ..)
  | Kept hf => cases hr hf
  | _ => exact .inr (not_leased_of_empty rfl)

theorem durable_of_unmanaged (hh : record.Held owner generation) (hu : event.Unmanaged)
    (hr : event.Recorded (some record)) (hs : Sidecar event (some record) next) :
    next.durability = .Durable := by
  rcases hh with hd | ⟨_, hf, _⟩
  · exact durable_sidecar hd hs
  cases hs with
  | Renewed =>
    rw [lease_of_unmanaged hu]
    exact renew_mixed (by simp [leased_of_find hf]) ..
  | Adopted => exact adopt_durable (.inr (leased_of_find hf)) ..
  | Kept hfault => cases hr hfault

theorem durable_of_leased (hf : record.Free) (hl : event.lease = some lease)
    (hs : Sidecar event (some record) next) : next.durability = .Durable := by
  rcases hf with hd | hleased
  · exact durable_sidecar hd hs
  cases hs with
  | @Renewed _ _ durability taken _ _ _ =>
    cases durability with
    | Durable => cases hl
    | Ephemeral =>
      obtain rfl : taken = some lease := hl
      exact renew_mixed (by simp [hleased]) ..
  | Adopted | Kept => cases hl

theorem held_of_leased (hl : event.lease = some lease) (hs : Sidecar event old next) :
    next.Held lease.owner lease.generation := by
  cases event with
  | Put _ _ durability taken =>
    cases durability with
    | Durable => cases hl
    | Ephemeral =>
      obtain rfl : taken = some lease := hl
      cases hs with
      | Created => exact .inr ⟨_, by simp [leaseTable, find_set], Nat.le_refl _⟩
      | Renewed =>
        refine (renew_cases ..).imp_right fun hr => ?_
        obtain ⟨_, _, hleases⟩ := hr
        rw [hleases]
        exact ⟨_, (find_set ..).trans (if_pos rfl), Nat.le_max_right ..⟩
  | _ => cases hl

def Slot.Fits (slot : Slot) (digest : Bytes → Hash) (hash : Hash) : Prop :=
  ∀ blob, slot.blob = some blob → digest blob = hash

def Slot.Durable (slot : Slot) : Prop :=
  ∃ record, slot.record = some record ∧ record.durability = .Durable

def Slot.Held (slot : Slot) (owner : String) (generation : Nat) : Prop :=
  slot.blob.isSome ∧ ∃ record, slot.record = some record ∧ record.Held owner generation

def Slot.Unmanaged (slot : Slot) : Prop := ∃ record, slot.record = some record ∧ record.Free

def Event.Collects (hash : Hash) : Event → Prop
  | .DeleteIfEphemeral other _ => other = hash
  | .Release other _ _ => other = hash
  | _ => False

-- What may end a lease: the age limit, and the release by its owner.
def Event.Ends (hash : Hash) (owner : String) (generation : Nat) : Event → Prop
  | .DeleteIfOlderThan other _ _ => other = hash
  | .Release other lease _ => other = hash ∧ lease.owner = owner ∧ generation ≤ lease.generation
  | _ => False

def Event.Deletes (hash : Hash) : Event → Prop
  | .DeleteIfOlderThan other _ _ => other = hash
  | .DeleteIfEphemeral other _ => other = hash
  | _ => False

theorem fits_step (hf : slot.Fits digest hash)
    (hs : SlotStep digest hash slot event reply after) : after.Fits digest hash := by
  cases hs with
  | Untouched | Lapsed => exact hf
  | Refused _ hb => exact fun bytes h => (hb bytes h).elim (hf bytes) id
  | Stored _ hb =>
    rintro _ ⟨rfl⟩
    exact hb.elim (hf _) id
  | Torn | Removed => nofun

theorem durable_step (hd : slot.Durable) (hstep : SlotStep digest hash slot event reply after) :
    after.Durable ∨
      (∃ cutoff fault, event = .DeleteIfOlderThan hash cutoff fault) ∧ reply = .Deleted true := by
  obtain ⟨record, hr, hd⟩ := id hd
  cases hstep with
  | Stored _ _ hs =>
    rw [hr] at hs
    exact .inl ⟨_, rfl, durable_sidecar hd hs⟩
  | Torn ho =>
    obtain rfl := some.inj (hr.symm.trans ho)
    exact .inl ⟨record, rfl, hd⟩
  | Removed ho hremoves =>
    obtain rfl := some.inj (hr.symm.trans ho)
    by_contra hn
    rw [not_or, not_and] at hn
    exact not_removes_durable hd (fun cutoff fault h => hn.2 ⟨cutoff, fault, h⟩ rfl) hremoves
  | Lapsed ho he =>
    obtain rfl := some.inj (hr.symm.trans ho)
    rw [hd] at he
    cases he
  | _ => exact .inl ⟨record, hr, hd⟩

-- The lease that goes is another owner's, since the owner's own is not older.
theorem other_owner (hk : ¬(Event.Release hash lease fault).Ends hash owner generation)
    (hf : record.ephemeralLeases.find owner = some later) (hle : generation ≤ later)
    (hl : record.ephemeralLeases.find lease.owner = some lease.generation) :
    owner ≠ lease.owner := by
  rintro rfl
  obtain rfl := some.inj (hf.symm.trans hl)
  exact hk ⟨rfl, rfl, hle⟩

theorem not_removes_held (hh : record.Held owner generation)
    (hk : ¬event.Ends hash owner generation) : ¬event.Removes hash record := by
  intro hr
  cases event with
  | DeleteIfOlderThan => exact hk hr.1
  | DeleteIfEphemeral =>
    obtain ⟨-, he, hl⟩ := hr
    rcases owned_of_held hh with ho | ho
    · simp [he] at ho
    · simp [hl] at ho
  | Release =>
    obtain ⟨rfl, he, hlease, hn⟩ := hr
    obtain ⟨_, hf, hle⟩ := hh.resolve_left (by simp [he])
    cases hf.symm.trans (hn owner (other_owner hk hf hle hlease))
  | _ => exact hr

theorem held_step (hh : slot.Held owner generation) (hk : ¬event.Ends hash owner generation)
    (hstep : SlotStep digest hash slot event reply after) : after.Held owner generation := by
  obtain ⟨hb, record, hr, ho⟩ := id hh
  cases hstep with
  | Untouched => exact hh
  | Refused _ _ hsome =>
    exact ⟨hsome (by rw [hr]; rfl) hb, record, hr, ho⟩
  | Stored _ _ hs =>
    rw [hr] at hs
    exact ⟨rfl, _, rfl, held_sidecar ho hs⟩
  | Torn hother hremoves | Removed hother hremoves =>
    obtain rfl := some.inj (hr.symm.trans hother)
    exact absurd hremoves (not_removes_held ho hk)
  | @Lapsed lease fault other hother he hlease =>
    obtain rfl := some.inj (hr.symm.trans hother)
    obtain ⟨later, hf, hle⟩ := ho.resolve_left (by simp [he])
    refine ⟨hb, _, rfl, .inr ⟨later, ?_, hle⟩⟩
    rw [find_remove, if_neg (other_owner hk hf hle hlease)]
    exact hf

theorem unmanaged_step (hu : slot.Unmanaged) (hk : ¬event.Deletes hash)
    (hstep : SlotStep digest hash slot event reply after) : after.Unmanaged := by
  obtain ⟨record, hrecord, hf⟩ := id hu
  have hunleased : ∀ {lease : Lease}, record.durability = .Ephemeral →
      record.ephemeralLeases.find lease.owner ≠ some lease.generation := by
    intro lease he hl
    have hleased := hf.resolve_left (by simp [he])
    cases (leased_of_find hl).symm.trans hleased
  have hrefuse : ¬event.Removes hash record := by
    intro hr
    cases event with
    | DeleteIfOlderThan | DeleteIfEphemeral => exact hk hr.1
    | Release => exact hunleased hr.2.1 hr.2.2.1
    | _ => exact hr
  cases hstep with
  | Untouched => exact hu
  | Refused => exact ⟨record, hrecord, hf⟩
  | Stored _ _ hs =>
    rw [hrecord] at hs
    exact ⟨_, rfl, free_sidecar hf hs⟩
  | Torn ho hr | Removed ho hr =>
    obtain rfl := some.inj (hrecord.symm.trans ho)
    exact absurd hr hrefuse
  | Lapsed ho he hl =>
    obtain rfl := some.inj (hrecord.symm.trans ho)
    exact absurd hl (hunleased he)

theorem stored_step (hp : event.Puts digest hash)
    (hstep : SlotStep digest hash slot event (.Stored hash) after) :
    ∃ blob record, after = ⟨some blob, some record⟩ ∧ Sidecar event slot.record record := by
  cases hstep with
  | Untouched hstored => exact absurd rfl (hstored hp)
  | Stored _ _ hs => exact ⟨_, _, rfl, hs⟩

theorem removed_step (ht : event.target digest = some hash)
    (hs : SlotStep digest hash slot event (.Deleted true) after) :
    after = .vacant ∧ ∃ record, event.Removes hash record := by
  cases hs with
  | Untouched _ hdeleted => exact absurd rfl (hdeleted ht)
  | Removed _ hr => exact ⟨rfl, _, hr⟩

theorem collect_step (hd : slot.Durable) (ht : event.target digest = some hash)
    (hc : event.Collects hash) (hs : SlotStep digest hash slot event reply after) :
    after = slot ∧ reply ≠ .Deleted true := by
  obtain ⟨record, hr, hd⟩ := hd
  have hp : ¬event.Puts digest hash := by cases event <;> first | exact id | cases hc
  have hrefuse : ¬event.Removes hash record :=
    not_removes_durable hd fun _ _ h => by rw [h] at hc; exact hc
  cases hs with
  | Untouched _ hdeleted => exact ⟨rfl, hdeleted ht⟩
  | Refused hputs | Stored hputs => exact absurd hputs hp
  | Torn ho hremoves | Removed ho hremoves =>
    obtain rfl := some.inj (hr.symm.trans ho)
    exact absurd hremoves hrefuse
  | Lapsed ho hephemeral =>
    obtain rfl := some.inj (hr.symm.trans ho)
    simp [hd] at hephemeral

theorem empty_step (he : slot.blob = none) (hp : ¬event.Puts digest hash)
    (hs : SlotStep digest hash slot event reply after) : after.blob = none := by
  cases hs with
  | Untouched | Lapsed => exact he
  | Refused hputs | Stored hputs => exact absurd hputs hp
  | Torn | Removed => rfl

end Nteract.BlobStore
