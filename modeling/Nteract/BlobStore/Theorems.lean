import Nteract.BlobStore.Slots
import Nteract.Lib.Transition

namespace Nteract.BlobStore

open Lib

open Lib.Transition (Run)

variable {digest : Bytes → Hash} {store before after : Store} {event : Event} {hash : Hash}

theorem find_memory_remove (memory : MemoryLayer) (hash other : Hash) :
    (memory.remove hash).entries.find other =
      if other = hash then none else memory.entries.find other := by
  unfold MemoryLayer.remove
  cases hf : memory.entries.find hash with
  | none =>
    dsimp only
    split
    · rename_i heq
      rw [heq, hf]
    · rfl
  | some => exact Table.find_remove ..

theorem find_evictFrom {memory : MemoryLayer}
    (hf : (memory.evictFrom order).entries.find hash = some entry) :
    memory.entries.find hash = some entry := by
  induction order generalizing memory with
  | nil => exact hf
  | cons first _ ih =>
    unfold MemoryLayer.evictFrom at hf
    split at hf
    · exact hf
    split at hf
    · have hk := ih hf
      rw [find_memory_remove] at hk
      split at hk
      · cases hk
      · exact hk
    · exact ih hf

theorem find_insert {memory : MemoryLayer}
    (hf : (memory.insert update).entries.find hash = some entry) :
    memory.entries.find hash = some entry ∨ update.hash = hash ∧ update.data = entry.data ∧
      (update.durability = .Durable → entry.durability = .Durable) := by
  unfold MemoryLayer.insert at hf
  split at hf
  · exact Or.inl hf
  · have hs := find_evictFrom hf
    rw [Table.find_set] at hs
    split at hs
    · rename_i heq
      cases hs
      refine Or.inr ⟨heq.symm, rfl, fun hd => ?_⟩
      dsimp only
      split
      · exact if_pos (.inr hd)
      · exact hd
    · rw [find_memory_remove] at hs
      split at hs
      · cases hs
      · exact Or.inl hs

-- The memory layer only takes over what a put has handed to it.
structure MemoryStep (digest : Bytes → Hash) (before : Store) (event : Event) (after : Store) :
    Prop where
  memory : ∀ hash entry, after.memory.entries.find hash = some entry →
    before.memory.entries.find hash = some entry ∨
      ∃ update ∈ before.pending, event = .Prime update ∧ update.hash = hash ∧
        update.data = entry.data ∧ (update.durability = .Durable → entry.durability = .Durable)
  pending : ∀ update ∈ after.pending, update ∈ before.pending ∨
    event.Puts digest update.hash ∧ digest update.data = update.hash

theorem MemoryStep.of_kept (hm : after.memory = before.memory)
    (hp : after.pending = before.pending) : MemoryStep digest before event after :=
  ⟨fun _ _ h => .inl (hm ▸ h), fun _ h => .inl (hp ▸ h)⟩

theorem finishDelete_memory (store : Store) (hash : Hash) (outcome : Slot × Except String Bool) :
    MemoryStep digest store event (if validateHash hash then store.finishDelete hash outcome
      else (store, .Deleted false)).1 := by
  split
  · obtain ⟨_, _ | _ | _⟩ := outcome
    · exact .of_kept rfl rfl
    · exact .of_kept rfl rfl
    · refine ⟨fun other entry hf => ?_, fun _ h => .inl h⟩
      have hk : (store.memory.remove hash).entries.find other = some entry := hf
      rw [find_memory_remove] at hk
      split at hk
      · cases hk
      · exact .inl hk
  · exact .of_kept rfl rfl

theorem perform_memory (store : Store) (event : Event) :
    MemoryStep digest store event (store.perform digest event).1 := by
  cases event with
  | Put =>
    unfold Store.perform Store.put
    dsimp only
    split
    · exact .of_kept rfl rfl
    split
    · exact .of_kept rfl rfl
    split
    · exact .of_kept rfl rfl
    · refine ⟨fun _ _ h => .inl h, fun update hu => ?_⟩
      rcases List.mem_append.mp hu with ho | hn
      · exact .inl ho
      · obtain rfl := List.mem_singleton.mp hn
        exact .inr ⟨rfl, rfl⟩
  | Prime update =>
    unfold Store.perform
    dsimp only
    split
    · rename_i hp
      refine ⟨fun hash entry hf => ?_, fun _ h => .inl (List.mem_of_mem_erase h)⟩
      exact (find_insert hf).imp_right fun hn => ⟨update, hp, rfl, hn⟩
    · exact .of_kept rfl rfl
  | PutParts =>
    unfold Store.perform
    dsimp only
    split <;> exact .of_kept rfl rfl
  | DeleteIfOlderThan other | DeleteIfEphemeral other | Release other =>
    exact finishDelete_memory store other _

-- Whatever a reader can meet, now or after an update, is under its own digest.
structure Store.Addressed (store : Store) (digest : Bytes → Hash) : Prop where
  disk : ∀ hash, (store.disk hash).Fits digest hash
  memory : ∀ hash entry, store.memory.entries.find hash = some entry → digest entry.data = hash
  pending : ∀ update ∈ store.pending, digest update.data = update.hash

theorem addressed_fresh (cap : Nat) : (Store.fresh cap).Addressed digest :=
  ⟨fun _ => nofun, nofun, nofun⟩

theorem addressed_step (ha : before.Addressed digest)
    (hs : Performs digest before event after) : after.Addressed digest := by
  obtain rfl := hs
  refine ⟨fun hash => fits_step (ha.disk hash) (perform_slot before event hash),
    fun hash entry hf => ?_, fun update hu => ?_⟩
  · rcases (perform_memory before event).memory hash entry hf with
      ho | ⟨update, hm, -, hh, hdata, -⟩
    · exact ha.memory hash entry ho
    · rw [← hdata, ← hh]
      exact ha.pending update hm
  · rcases (perform_memory before event).pending update hu with ho | ⟨-, hd⟩
    · exact ha.pending update ho
    · exact hd

theorem digest_of_get (ha : store.Addressed digest) (hg : store.get hash = some blob) :
    digest blob = hash := by
  unfold Store.get at hg
  split at hg
  · split at hg
    · rename_i entry hf
      cases hg
      exact ha.memory hash entry hf
    · exact ha.disk hash blob hg
  · cases hg

structure Store.Gone (store : Store) (hash : Hash) : Prop where
  disk : (store.disk hash).blob = none
  memory : store.memory.entries.find hash = none
  pending : ∀ update ∈ store.pending, update.hash ≠ hash

theorem get_gone (hg : store.Gone hash) : store.get hash = none := by
  unfold Store.get
  rw [hg.memory, hg.disk, ite_self]

theorem gone_step (hg : before.Gone hash) (hp : ¬event.Puts digest hash)
    (hs : Performs digest before event after) : after.Gone hash := by
  obtain rfl := hs
  refine ⟨empty_step hg.disk hp (perform_slot before event hash), ?_, ?_⟩
  · apply Option.eq_none_iff_forall_ne_some.mpr
    intro entry hf
    rcases (perform_memory before event).memory hash entry hf with
      ho | ⟨update, hm, -, hh, -⟩
    · cases hg.memory.symm.trans ho
    · exact hg.pending update hm hh
  · rintro update hu rfl
    rcases (perform_memory before event).pending update hu with ho | ⟨hputs, -⟩
    · exact hg.pending update ho rfl
    · exact hp hputs

theorem slot_of_perform (hs : before.perform digest event = (after, reply)) (hash : Hash) :
    SlotStep digest hash (before.disk hash) event reply (after.disk hash) := by
  have hslot : SlotStep digest hash (before.disk hash) event (before.perform digest event).2
      ((before.perform digest event).1.disk hash) := perform_slot before event hash
  rwa [hs] at hslot

theorem finishDelete_removed
    (hs : (if validateHash hash then before.finishDelete hash outcome else (before, .Deleted
      false)) = (after, .Deleted true)) :
    after.memory = before.memory.remove hash ∧ after.pending = before.pending := by
  split at hs
  · obtain ⟨_, _ | _ | _⟩ := outcome
    · cases congrArg Prod.snd hs
    · cases congrArg Prod.snd hs
    · obtain rfl := congrArg Prod.fst hs
      exact ⟨rfl, rfl⟩
  · cases congrArg Prod.snd hs

theorem gone_of_removed (ht : event.target digest = some hash)
    (hs : ∀ update ∈ before.pending, update.hash ≠ hash)
    (hstep : before.perform digest event = (after, .Deleted true)) : after.Gone hash := by
  have hslot := slot_of_perform hstep hash
  have hm : after.memory = before.memory.remove hash ∧ after.pending = before.pending := by
    obtain ⟨-, _, hr⟩ := removed_step ht hslot
    cases event with
    | Put | PutParts => cases hr
    | Prime => cases ht
    | _ =>
      obtain rfl := Option.some.inj ht
      exact finishDelete_removed hstep
  refine ⟨by rw [(removed_step ht hslot).1]; rfl, ?_, ?_⟩
  · rw [hm.1, find_memory_remove, if_pos rfl]
  · rw [hm.2]
    exact hs

-- A durable blob keeps being reported as one, unless an older update brings back what was known
-- before.
def Store.ReportsDurable (store : Store) (hash : Hash) : Prop :=
  ∃ record, store.getMeta hash = some record ∧ record.durability = .Durable

theorem reports_of_memory (hr : before.ReportsDurable hash)
    (hd : (after.disk hash).Durable)
    (hm : ∀ entry, after.memory.entries.find hash = some entry →
      before.memory.entries.find hash = some entry ∨ entry.durability = .Durable) :
    after.ReportsDurable hash := by
  obtain ⟨record, hg, hdurable⟩ := hr
  unfold Store.getMeta at hg
  split at hg
  · rename_i hv
    unfold Store.ReportsDurable Store.getMeta
    rw [if_pos hv]
    cases hf : after.memory.entries.find hash with
    | none => exact hd
    | some entry =>
      refine ⟨entry.toMeta, rfl, ?_⟩
      rcases hm entry hf with ho | hentry
      · rw [ho] at hg
        cases hg
        exact hdurable
      · exact hentry
  · cases hg

section Shared

variable {ι : Type} [DecidableEq ι] {first last : Shared ι}

abbrev Shares (digest : Bytes → Hash) (before : Shared ι) (step : ι × Event) (after : Shared ι) :
    Prop :=
  (before.perform digest step.1 step.2).1 = after

theorem view_perform (shared : Shared ι) (process reader : ι) (event : Event) :
    (shared.perform digest process event).1.view reader =
      if reader = process then ((shared.view process).perform digest event).1
      else
        { shared.view reader with
          disk := ((shared.view process).perform digest event).1.disk } := by
  unfold Shared.perform Shared.view
  split
  · rename_i hp
    subst hp
    simp
  · rename_i hp
    simp [hp]

theorem slot_run {kind : Slot → Prop} {allowed : Event → Prop}
    (hk : ∀ slot event reply after, kind slot → allowed event → SlotStep digest hash slot event
      reply after → kind after) (hr : Run (Shares digest) first steps last)
    (he : ∀ step ∈ steps, allowed step.2) (hf : kind (first.disk hash)) :
    kind (last.disk hash) := by
  induction hr with
  | nil => exact hf
  | @cons first middle last step steps hs _ ih =>
    rw [List.forall_mem_cons] at he
    obtain rfl := hs
    exact ih he.2 (hk _ _ _ _ hf he.1 (perform_slot (first.view step.1) step.2 hash))

theorem shared_addressed_step (ha : ∀ reader, (first.view reader).Addressed digest)
    (hs : Shares digest first step last) (reader : ι) : (last.view reader).Addressed digest := by
  obtain rfl := hs
  have hown := addressed_step (ha step.1) (rfl : Performs digest _ step.2 _)
  rw [view_perform]
  split
  · exact hown
  · exact ⟨hown.disk, (ha reader).memory, (ha reader).pending⟩

theorem shared_gone_run (hr : Run (Shares digest) first steps last)
    (he : ∀ step ∈ steps, ¬step.2.Puts digest hash)
    (hg : ∀ reader, (first.view reader).Gone hash) (reader : ι) : (last.view reader).Gone hash := by
  induction hr with
  | nil => exact hg reader
  | @cons first middle last step steps hs _ ih =>
    rw [List.forall_mem_cons] at he
    obtain rfl := hs
    refine ih he.2 fun reader => ?_
    have hown := gone_step (hg step.1) he.1 (rfl : Performs digest _ step.2 _)
    rw [view_perform]
    split
    · exact hown
    · exact ⟨hown.disk, (hg reader).memory, (hg reader).pending⟩

theorem reports_step (shared : Shared ι) (process reader : ι)
    (hd : (shared.disk hash).Durable) (hr : (shared.view reader).ReportsDurable hash)
    (hu : ∀ update, event = .Prime update → reader = process → update.hash = hash →
      update.durability = .Durable) :
    ((shared.perform digest process event).1.view reader).ReportsDurable hash ∨
      (∃ cutoff fault, event = .DeleteIfOlderThan hash cutoff fault) ∧
        (shared.perform digest process event).2 = .Deleted true := by
  refine (durable_step hd (perform_slot (shared.view process) event hash)).imp_left fun hkept => ?_
  rw [view_perform]
  split
  · rename_i hp
    subst hp
    refine reports_of_memory hr hkept fun entry hf => ?_
    refine ((perform_memory _ event).memory hash entry hf).imp_right ?_
    rintro ⟨update, -, he, hh, -, hdurable⟩
    exact hdurable (hu update he rfl hh)
  · exact reports_of_memory hr hkept fun entry hf => .inl hf

end Shared

theorem finishDelete_kept
    (ho : outcome.1 = store.disk hash ∧ Reply.ofDelete outcome.2 ≠ .Deleted true) :
    let result := if validateHash hash then store.finishDelete hash outcome
      else (store, .Deleted false)
    result.1 = store ∧ result.2 ≠ .Deleted true := by
  obtain ⟨_, result⟩ := outcome
  obtain ⟨rfl, hr⟩ := ho
  have hs : store.setSlot hash (store.disk hash) = store := by
    rw [Store.setSlot, Function.update_eq_self]
  split
  · rcases result with _ | _ | _
    · exact ⟨hs, nofun⟩
    · exact ⟨hs, nofun⟩
    · exact absurd rfl hr
  · exact ⟨rfl, nofun⟩

theorem collect_durable (hd : (store.disk hash).Durable) (hc : event.Collects hash) :
    (store.perform digest event).1 = store ∧ (store.perform digest event).2 ≠ .Deleted true := by
  cases event with
  | DeleteIfEphemeral other fault =>
    obtain rfl : other = hash := hc
    have hs : SlotStep digest other _ (.DeleteIfEphemeral other fault) _ _ :=
      deleteIfEphemeral_slot (store.disk other) fault
    exact finishDelete_kept (collect_step hd rfl (by rfl) hs)
  | Release other lease fault =>
    obtain rfl : other = hash := hc
    have hs : SlotStep digest other _ (.Release other lease fault) _ _ :=
      release_slot (store.disk other) lease fault
    exact finishDelete_kept (collect_step hd rfl (by rfl) hs)
  | _ => cases hc

section Shared

variable {ι : Type} [DecidableEq ι] {first middle last : Shared ι} {process : ι} {put delete : Event}

theorem shared_slot (hs : first.perform digest process event = (middle, reply)) (hash : Hash) :
    SlotStep digest hash (first.disk hash) event reply (middle.disk hash) := by
  obtain rfl := congrArg Prod.fst hs
  obtain rfl := congrArg Prod.snd hs
  exact perform_slot (first.view process) event hash

theorem shared_collect (process : ι) (hd : (first.disk hash).Durable) (hc : event.Collects hash) :
    (first.perform digest process event).1 = first ∧
      (first.perform digest process event).2 ≠ .Deleted true := by
  have hview : ((first.view process).disk hash).Durable := hd
  obtain ⟨hkept, hreply⟩ := collect_durable hview hc
  refine ⟨?_, hreply⟩
  simp only [Shared.perform, hkept]
  simp [Shared.view]

theorem held_run (hl : put.lease = some lease) (hp : put.Puts digest hash)
    (hs : first.perform digest process put = (middle, .Stored hash))
    (hr : Run (Shares digest) middle steps last)
    (hk : ∀ step ∈ steps, ¬step.2.Ends hash lease.owner lease.generation) :
    (last.disk hash).Held lease.owner lease.generation := by
  obtain ⟨_, record, hstored, hsidecar⟩ := stored_step hp (shared_slot hs hash)
  have hmiddle : (middle.disk hash).Held lease.owner lease.generation := by
    rw [hstored]
    exact ⟨rfl, record, rfl, held_of_leased hl hsidecar⟩
  exact slot_run (fun _ _ _ _ hheld hkeep hstep => held_step hheld hkeep hstep) hr hk hmiddle

theorem unmanaged_run (hu : put.Unmanaged) (hp : put.Puts digest hash)
    (hf : put.Recorded (first.disk hash).record)
    (hs : first.perform digest process put = (middle, .Stored hash))
    (hr : Run (Shares digest) middle steps last) (hk : ∀ step ∈ steps, ¬step.2.Deletes hash) :
    (last.disk hash).Unmanaged := by
  obtain ⟨_, record, hstored, hsidecar⟩ := stored_step hp (shared_slot hs hash)
  have hmiddle : (middle.disk hash).Unmanaged := by
    rw [hstored]
    exact ⟨record, rfl, free_of_unmanaged hu hf hsidecar⟩
  exact slot_run (fun _ _ _ _ hkind hkeep hstep => unmanaged_step hkind hkeep hstep) hr hk hmiddle

theorem shared_gone (ht : delete.target digest = some hash)
    (hp : ∀ reader, (∀ update ∈ first.pending reader, update.hash ≠ hash) ∧
      (reader ≠ process → (first.memory reader).entries.find hash = none))
    (hs : first.perform digest process delete = (middle, .Deleted true)) (reader : ι) :
    (middle.view reader).Gone hash := by
  obtain rfl := congrArg Prod.fst hs
  have hreply : ((first.view process).perform digest delete).2 = .Deleted true :=
    congrArg Prod.snd hs
  have hgone := gone_of_removed ht (hp process).1 (Prod.ext rfl hreply)
  rw [view_perform]
  split
  · exact hgone
  · rename_i hother
    exact ⟨hgone.disk, (hp reader).2 hother, (hp reader).1⟩

end Shared

-- Reads are addressed by content, durable sidecars stay and are reported unless an older update is
-- due, leases hold, both kinds of owner make a blob durable, and a removed blob stays away unless
-- an update is due or another process has it in memory.
theorem blobs_addressed_and_leased {ι : Type} [DecidableEq ι] (digest : Bytes → Hash) (cap : Nat) :
    (∀ steps (shared : Shared ι), Run (Shares digest) (.fresh cap) steps shared →
      ∀ reader hash blob, (shared.view reader).get hash = some blob → digest blob = hash) ∧
    (∀ (shared : Shared ι) process event hash, (shared.disk hash).Durable →
      ((shared.perform digest process event).1.disk hash).Durable ∨
        (∃ cutoff fault, event = .DeleteIfOlderThan hash cutoff fault) ∧
          (shared.perform digest process event).2 = .Deleted true) ∧
    (∀ (shared : Shared ι) process event hash reader, (shared.disk hash).Durable →
      (shared.view reader).ReportsDurable hash →
      (∀ update, event = .Prime update → reader = process → update.hash = hash →
        update.durability = .Durable) →
      ((shared.perform digest process event).1.view reader).ReportsDurable hash ∨
        (∃ cutoff fault, event = .DeleteIfOlderThan hash cutoff fault) ∧
          (shared.perform digest process event).2 = .Deleted true) ∧
    (∀ (shared : Shared ι) process event hash, (shared.disk hash).Durable → event.Collects hash →
      (shared.perform digest process event).1 = shared ∧
        (shared.perform digest process event).2 ≠ .Deleted true) ∧
    (∀ (first : Shared ι) process put middle steps last hash lease, put.lease = some lease →
      put.Puts digest hash → first.perform digest process put = (middle, .Stored hash) →
      Run (Shares digest) middle steps last →
      (∀ step ∈ steps, ¬step.2.Ends hash lease.owner lease.generation) →
      (last.disk hash).Held lease.owner lease.generation) ∧
    (∀ (first : Shared ι) process put middle steps (later : Shared ι) other leased last hash lease,
      put.Unmanaged → put.Puts digest hash → put.Recorded (first.disk hash).record →
      first.perform digest process put = (middle, .Stored hash) →
      Run (Shares digest) middle steps later → (∀ step ∈ steps, ¬step.2.Deletes hash) →
      leased.lease = some lease → leased.Puts digest hash →
      later.perform digest other leased = (last, .Stored hash) → (last.disk hash).Durable) ∧
    (∀ (first : Shared ι) process leased middle steps (later : Shared ι) other put last hash lease,
      leased.lease = some lease → leased.Puts digest hash →
      first.perform digest process leased = (middle, .Stored hash) →
      Run (Shares digest) middle steps later →
      (∀ step ∈ steps, ¬step.2.Ends hash lease.owner lease.generation) → put.Unmanaged →
      put.Puts digest hash → put.Recorded (later.disk hash).record →
      later.perform digest other put = (last, .Stored hash) → (last.disk hash).Durable) ∧
    ∀ (first : Shared ι) process delete middle steps last hash, delete.target digest = some hash →
      (∀ reader, (∀ update ∈ first.pending reader, update.hash ≠ hash) ∧
        (reader ≠ process → (first.memory reader).entries.find hash = none)) →
      first.perform digest process delete = (middle, .Deleted true) →
      Run (Shares digest) middle steps last → (∀ step ∈ steps, ¬step.2.Puts digest hash) →
      ∀ reader, (last.view reader).get hash = none := by
  refine ⟨?_, ?_, ?_, ?_, ?_, ?_, ?_, ?_⟩
  · intro steps shared hrun reader hash blob hget
    have haddressed : ∀ reader, (shared.view reader).Addressed digest :=
      hrun.invariant (fun shared => ∀ reader, (shared.view reader).Addressed digest)
        (fun _ _ _ => shared_addressed_step) fun _ => addressed_fresh cap
    exact digest_of_get (haddressed reader) hget
  · intro shared process event hash hdurable
    exact durable_step hdurable (perform_slot (shared.view process) event hash)
  · intro shared process event hash reader hdurable hreports hupdate
    exact reports_step shared process reader hdurable hreports hupdate
  · intro shared process event hash hdurable hcollects
    exact shared_collect process hdurable hcollects
  · intro first process put middle steps last hash lease hlease hputs hput hrun hsteps
    exact held_run hlease hputs hput hrun hsteps
  · intro first process put middle steps later other leased last hash lease hunmanaged hputs
      hrecorded hput hrun hsteps hlease hleased hlast
    obtain ⟨_, hkept, hfree⟩ := unmanaged_run hunmanaged hputs hrecorded hput hrun hsteps
    obtain ⟨_, next, hstored, hsidecar⟩ := stored_step hleased (shared_slot hlast hash)
    rw [hkept] at hsidecar
    rw [hstored]
    exact ⟨next, rfl, durable_of_leased hfree hlease hsidecar⟩
  · intro first process leased middle steps later other put last hash lease hlease hleased hfirst
      hrun hsteps hunmanaged hputs hrecorded hput
    obtain ⟨-, _, hkept, hlater⟩ := held_run hlease hleased hfirst hrun hsteps
    obtain ⟨_, next, hstored, hsidecar⟩ := stored_step hputs (shared_slot hput hash)
    rw [hkept] at hsidecar hrecorded
    rw [hstored]
    exact ⟨next, rfl, durable_of_unmanaged hlater hunmanaged hrecorded hsidecar⟩
  · intro first process delete middle steps last hash htarget hsettled hdelete hrun hsteps reader
    exact get_gone (shared_gone_run hrun hsteps (shared_gone htarget hsettled hdelete) reader)

def Shared.performAll {ι : Type} [DecidableEq ι] (digest : Bytes → Hash) (shared : Shared ι)
    (steps : List (ι × Event)) : Shared ι :=
  steps.foldl (fun shared step => (shared.perform digest step.1 step.2).1) shared

inductive Process
  | Daemon
  | Agent
deriving DecidableEq

-- A digest of the test runs: one content has its own address.
def oneDigest (data : Bytes) : Hash :=
  if data = [1] then "aaaaaaaaaaaaaaaaaaaaaaaaaaaaaaaaaaaaaaaaaaaaaaaaaaaaaaaaaaaaaaaa"
  else "bbbbbbbbbbbbbbbbbbbbbbbbbbbbbbbbbbbbbbbbbbbbbbbbbbbbbbbbbbbbbbbb"

theorem shared_blob_durable_removed_blob_unreadable :
    let hash := oneDigest [1]
    let leased := Event.Put [1] "text/plain" .Ephemeral (some ⟨"cell", 3⟩) 0 {}
    let parts := Event.PutParts [[1]] "text/plain" 1 hash .Ephemeral 1 {}
    let shared := Shared.performAll oneDigest (.fresh 1024)
      [(.Daemon, .Put [2] "text/plain" .Durable none 0 {}), (Process.Agent, leased)]
    let put := Event.Put [1] "text/plain" .Ephemeral none 0 {}
    let primed := Shared.performAll oneDigest (.fresh 1024)
      [(.Agent, put), (Process.Agent, .Prime ⟨hash, [1], "text/plain", 0, .Ephemeral⟩)]
    let delete := Event.DeleteIfEphemeral hash {}
    ((shared.perform oneDigest .Daemon parts).1.disk hash).Durable ∧
      ((primed.perform oneDigest .Agent delete).1.view .Daemon).get hash = none := by
  intro hash leased parts shared put primed delete
  obtain ⟨-, -, -, -, -, -, hs, hremoved⟩ :=
    @blobs_addressed_and_leased Process _ oneDigest 1024
  refine ⟨?_, ?_⟩
  · have hr : parts.Recorded (shared.disk hash).record := fun h => absurd h (by decide)
    exact hs _ .Agent leased shared [] shared .Daemon parts _ hash ⟨"cell", 3⟩ rfl rfl
      (Prod.ext rfl (by decide +kernel)) (.nil shared) (fun _ h => by cases h) trivial rfl hr
      (Prod.ext rfl (by decide +kernel))
  · have hsettled : ∀ reader, (∀ update ∈ primed.pending reader, update.hash ≠ hash) ∧
        (reader ≠ .Agent → (primed.memory reader).entries.find hash = none) := by
      intro reader
      cases reader <;> decide +kernel
    exact hremoved primed .Agent delete _ [] _ hash rfl hsettled (Prod.ext rfl (by decide +kernel))
      (.nil _) (fun _ h => by cases h) .Daemon

-- A late memory update brings the blob back, and another process goes on reading it from memory.
-- An update older than the durable put turns the report to ephemeral. A multipart put whose sidecar
-- write fails leaves the blob to the lease and its release.
theorem removed_blob_returns_shared_blob_leased :
    let hash := oneDigest [1]
    let put := Event.Put [1] "text/plain" .Ephemeral none 0 {}
    let durable := Event.Put [1] "text/plain" .Durable none 0 {}
    let late := Event.Prime ⟨hash, [1], "text/plain", 0, .Ephemeral⟩
    let delete := Event.DeleteIfEphemeral hash {}
    let stored := Shared.performAll oneDigest (.fresh 1024) [(Process.Daemon, put)]
    let primed := Shared.performAll oneDigest stored [(.Daemon, late)]
    let raised := Shared.performAll oneDigest stored [(.Daemon, durable)]
    let leased := Event.Put [1] "text/plain" .Ephemeral (some ⟨"cell", 3⟩) 0 {}
    let torn := Shared.performAll oneDigest (.fresh 1024)
      [(.Agent, leased), (Process.Agent, .Release hash ⟨"cell", 3⟩ { record := true })]
    let parts := Event.PutParts [[1]] "text/plain" 1 hash .Durable 1 { record := true }
    let shared := (torn.perform oneDigest .Daemon parts).1
    (stored.perform oneDigest .Daemon delete).2 = .Deleted true ∧
      ((Shared.performAll oneDigest stored [(.Daemon, delete), (.Daemon, late)]).view .Daemon).get
        hash = some [1] ∧
      (primed.perform oneDigest .Agent delete).2 = .Deleted true ∧
      ((primed.perform oneDigest .Agent delete).1.view .Daemon).get hash = some [1] ∧
      (((raised.view .Daemon).getMeta hash).map BlobMeta.durability) = some .Durable ∧
      ((((raised.perform oneDigest .Daemon late).1.view .Daemon).getMeta hash).map
        BlobMeta.durability) = some .Ephemeral ∧
      (torn.perform oneDigest .Daemon parts).2 = .Stored hash ∧
      ((shared.disk hash).record.map BlobMeta.durability) = some .Ephemeral ∧
      (shared.perform oneDigest .Agent (.Release hash ⟨"cell", 3⟩ {})).2 = .Deleted true := by
  decide +kernel

end Nteract.BlobStore
