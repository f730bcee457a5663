import Nteract.Lib.Table

namespace Nteract.BlobStore

open Lib

abbrev Bytes := List UInt8

abbrev Hash := String

inductive Durability
  | Durable
  | Ephemeral
deriving DecidableEq

structure Lease where
  owner : String
  generation : Nat
deriving DecidableEq

structure BlobMeta where
  mediaType : String
  size : Nat
  createdAt : Nat
  durability : Durability
  ephemeralLeases : Table String Nat

structure Slot where
  blob : Option Bytes
  record : Option BlobMeta

def Slot.vacant : Slot := ⟨none, none⟩

-- The file operations of a call that fail.
structure Fault where
  lock : Bool := false
  read : Bool := false
  parts : Bool := false
  blob : Bool := false
  record : Bool := false
  cleanup : Bool := false
deriving DecidableEq

def MAX_BLOB_SIZE : Nat := 100 * 1024 * 1024

def mergedDurability (existing incoming : Durability) : Durability :=
  if existing = .Durable ∨ incoming = .Durable then .Durable else .Ephemeral

def BlobMeta.leased (record : BlobMeta) : Bool := !record.ephemeralLeases.entries.isEmpty

-- Producers with and without a lease on one ephemeral blob make it durable.
def BlobMeta.renew (record : BlobMeta) (mediaType : String) (now : Nat) (durability : Durability)
    (lease : Option Lease) : BlobMeta :=
  let mixedOwnership := decide (record.durability = .Ephemeral) &&
    decide (durability = .Ephemeral) && (lease.isSome != record.leased)
  let durability :=
    if mixedOwnership then .Durable else mergedDurability record.durability durability
  let leases :=
    if durability = .Durable then
      .empty
    else
      match lease with
      | some lease =>
        record.ephemeralLeases.set lease.owner
          (max ((record.ephemeralLeases.find lease.owner).getD 0) lease.generation)
      | none => record.ephemeralLeases
  { record with
    mediaType := mediaType
    createdAt := now
    durability := durability
    ephemeralLeases := leases }

def leaseTable (lease : Option Lease) : Table String Nat :=
  match lease with
  | some lease => Table.empty.set lease.owner lease.generation
  | none => .empty

variable (slot : Slot) (record : BlobMeta) (data : Bytes) (mediaType : String)
  (durability : Durability) (lease : Option Lease) (now : Nat) (fault : Fault)

-- A failed sidecar write leaves no other writer's sidecar: the lock is held.
def putNew : Slot × Except String Durability :=
  if fault.blob && slot.blob.isNone then
    (slot, .error "blob write failed")
  else
    let blob := if fault.blob then slot.blob else some data
    if fault.record then
      if fault.blob || fault.cleanup then
        (⟨blob, none⟩, .error "metadata write failed")
      else
        (.vacant, .error "metadata write failed")
    else
      (⟨blob, some ⟨mediaType, data.length, now, durability, leaseTable lease⟩⟩, .ok durability)

def putExisting : Slot × Except String Durability :=
  let renewed := record.renew mediaType now durability lease
  if slot.blob.isNone && fault.blob then
    (slot, .error "blob write failed")
  else
    let blob := some (slot.blob.getD data)
    if fault.record then
      (⟨blob, some record⟩, .error "metadata write failed")
    else
      (⟨blob, some renewed⟩, .ok renewed.durability)

-- The section of `put_disk` under the file lock.
def putDisk : Slot × Except String Durability :=
  if fault.lock then
    (slot, .error "timed out acquiring blob file lock")
  else
    match slot.record with
    | some record =>
      if fault.read then
        (slot, .error "unreadable metadata")
      else
        putExisting slot record data mediaType durability lease now fault
    | none => putNew slot data mediaType durability lease now fault

def validateHash (hash : Hash) : Bool :=
  hash.length = 64 && hash.toList.all fun c =>
    c.isDigit || ('a' ≤ c && c ≤ 'f') || ('A' ≤ c && c ≤ 'F')

-- The sidecar after a multipart put: a blob with leases becomes durable.
def BlobMeta.adopt (durability : Durability) : BlobMeta :=
  { record with
    durability :=
      if record.leased then .Durable else mergedDurability record.durability durability
    ephemeralLeases := .empty
    mediaType := mediaType
    createdAt := now }

def publishParts (existing : Option BlobMeta) (data : Bytes) (mediaType : String) (hash : Hash)
    (durability : Durability) (now : Nat) (fault : Fault) : Slot × Except String Hash :=
  if fault.blob && slot.blob.isNone then
    (slot, .error "blob rename failed")
  else
    let blob := if fault.blob then slot.blob else some data
    let record := existing.getD ⟨mediaType, data.length, now, durability, .empty⟩
    if fault.record then
      if slot.record.isSome then
        (⟨blob, slot.record⟩, .ok hash)
      else if fault.blob || fault.cleanup then
        (⟨blob, none⟩, .error "metadata write failed")
      else
        (.vacant, .error "metadata write failed")
    else
      (⟨blob, some record⟩, .ok hash)

def putPartFilesWithHash (digest : Bytes → Hash) (slot : Slot) (parts : List Bytes)
    (mediaType : String) (expectedSize : Nat) (expectedHash : Hash) (durability : Durability)
    (now : Nat) (fault : Fault) : Slot × Except String Hash :=
  if !validateHash expectedHash then
    (slot, .error "expected multipart blob hash is not a valid sha256 hex digest")
  else if fault.lock then
    (slot, .error "timed out acquiring blob file lock")
  else if slot.record.isSome && fault.read then
    (slot, .error "unreadable metadata")
  else
    let existing := slot.record.map fun record => record.adopt mediaType now durability
    match slot.blob, existing with
    | some blob, some record =>
      -- the blob is there already: the parts are not looked at
      if fault.record then
        (slot, .error "metadata write failed")
      else
        (⟨some blob, some record⟩, .ok expectedHash)
    | _, _ =>
      if fault.parts then
        (slot, .error "part read failed")
      else if parts.flatten.length ≠ expectedSize then
        (slot, .error
          s!"final size mismatch: got {parts.flatten.length} bytes, expected {expectedSize}")
      else if digest parts.flatten ≠ expectedHash then
        (slot, .error
          s!"final hash mismatch: got {digest parts.flatten}, expected {expectedHash}")
      else
        publishParts slot existing parts.flatten mediaType expectedHash durability now fault

def deleteIfOlderThan (cutoff : Nat) (fault : Fault) : Slot × Except String Bool :=
  if fault.lock then
    (slot, .error "timed out acquiring blob file lock")
  else
    match slot.record with
    | none => (slot, .ok false)
    | some record =>
      if fault.read then
        (slot, .error "unreadable metadata")
      else if cutoff ≤ record.createdAt then
        (slot, .ok false)
      else if fault.blob || slot.blob.isNone then
        (slot, .error "blob removal failed")
      else if fault.record then
        (⟨none, some record⟩, .error "metadata removal failed")
      else
        (.vacant, .ok true)

def removeFiles : Slot × Except String Bool :=
  if fault.blob && slot.blob.isSome then
    (slot, .error "blob removal failed")
  else if fault.record then
    (⟨none, some record⟩, .error "metadata removal failed")
  else
    (.vacant, .ok true)

def deleteIfEphemeral : Slot × Except String Bool :=
  if fault.lock then
    (slot, .error "timed out acquiring blob file lock")
  else
    match slot.record with
    | none => (slot, .ok false)
    | some record =>
      if fault.read then
        (slot, .error "unreadable metadata")
      else if record.durability ≠ .Ephemeral || record.leased then
        (slot, .ok false)
      else
        removeFiles slot record fault

def releaseEphemeralLease (lease : Lease) (fault : Fault) : Slot × Except String Bool :=
  if fault.lock then
    (slot, .error "timed out acquiring blob file lock")
  else
    match slot.record with
    | none => (slot, .ok false)
    | some record =>
      if fault.read then
        (slot, .error "unreadable metadata")
      else if record.durability ≠ .Ephemeral ||
          record.ephemeralLeases.find lease.owner ≠ some lease.generation then
        (slot, .ok false)
      else
        let leases := record.ephemeralLeases.remove lease.owner
        if leases.entries.isEmpty then
          removeFiles slot record fault
        else if fault.record then
          (slot, .error "metadata write failed")
        else
          ({ slot with record := some { record with ephemeralLeases := leases } }, .ok false)

structure MemoryEntry where
  data : Bytes
  mediaType : String
  createdAt : Nat
  durability : Durability
  seq : Nat
deriving DecidableEq

-- A repeated put leaves an older place in the order, told by its sequence.
structure MemoryLayer where
  entries : Table Hash MemoryEntry
  order : List (Hash × Nat)
  totalBytes : Nat
  cap : Nat
  nextSeq : Nat

def MemoryLayer.new (cap : Nat) : MemoryLayer := ⟨.empty, [], 0, cap, 0⟩

def MemoryLayer.remove (memory : MemoryLayer) (hash : Hash) : MemoryLayer :=
  match memory.entries.find hash with
  | some entry =>
    { memory with
      entries := memory.entries.remove hash
      totalBytes := memory.totalBytes - entry.data.length }
  | none => memory

def MemoryLayer.evictFrom (memory : MemoryLayer) : List (Hash × Nat) → MemoryLayer
  | [] => { memory with order := [] }
  | (hash, seq) :: order =>
    if memory.totalBytes ≤ memory.cap then
      { memory with order := (hash, seq) :: order }
    else if (memory.entries.find hash).any fun entry => entry.seq = seq then
      (memory.remove hash).evictFrom order
    else
      memory.evictFrom order

def MemoryLayer.evictToCap (memory : MemoryLayer) : MemoryLayer := memory.evictFrom memory.order

-- The memory part of a put, which runs after the disk part without the file lock.
structure Update where
  hash : Hash
  data : Bytes
  mediaType : String
  createdAt : Nat
  durability : Durability
deriving DecidableEq

def MemoryLayer.insert (memory : MemoryLayer) (update : Update) : MemoryLayer :=
  if memory.cap < update.data.length then
    memory
  else
    let durability :=
      match memory.entries.find update.hash with
      | some existing => mergedDurability existing.durability update.durability
      | none => update.durability
    let memory := memory.remove update.hash
    let entry : MemoryEntry :=
      ⟨update.data, update.mediaType, update.createdAt, durability, memory.nextSeq⟩
    MemoryLayer.evictToCap
      { memory with
        entries := memory.entries.set update.hash entry
        order := memory.order ++ [(update.hash, memory.nextSeq)]
        totalBytes := memory.totalBytes + update.data.length
        nextSeq := (memory.nextSeq + 1) % 2 ^ 64 }

structure Store where
  disk : Hash → Slot
  memory : MemoryLayer
  pending : List Update

def Store.fresh (cap : Nat) : Store := ⟨fun _ => .vacant, .new cap, []⟩

inductive Event
  | Put (data : Bytes) (mediaType : String) (durability : Durability) (lease : Option Lease)
      (now : Nat) (fault : Fault)
  | Prime (update : Update)
  | PutParts (parts : List Bytes) (mediaType : String) (expectedSize : Nat) (expectedHash : Hash)
      (durability : Durability) (now : Nat) (fault : Fault)
  | DeleteIfOlderThan (hash : Hash) (cutoff : Nat) (fault : Fault)
  | DeleteIfEphemeral (hash : Hash) (fault : Fault)
  | Release (hash : Hash) (lease : Lease) (fault : Fault)

inductive Reply
  | Stored (hash : Hash)
  | Deleted (removed : Bool)
  | Failed (message : String)
  | Quiet
deriving DecidableEq

variable (digest : Bytes → Hash) (store : Store)

def Store.setSlot (hash : Hash) (slot : Slot) : Store :=
  { store with disk := Function.update store.disk hash slot }

-- A durable put takes no lease, and an ephemeral blob above the cap stays on disk only.
def Store.put (data : Bytes) (mediaType : String) (durability : Durability) (lease : Option Lease)
    (now : Nat) (fault : Fault) : Store × Reply :=
  if MAX_BLOB_SIZE < data.length then
    (store, .Failed s!"blob too large: {data.length} bytes (max {MAX_BLOB_SIZE})")
  else
    let hash := digest data
    let lease := if durability = .Durable then none else lease
    match putDisk (store.disk hash) data mediaType durability lease now fault with
    | (slot, .error message) => (store.setSlot hash slot, .Failed message)
    | (slot, .ok effective) =>
      let stored := store.setSlot hash slot
      if durability = .Ephemeral ∧ store.memory.cap < data.length then
        (stored, .Stored hash)
      else
        ({ stored with pending := store.pending ++ [⟨hash, data, mediaType, now, effective⟩] },
          .Stored hash)

-- A removal that took place drops the memory entry before the lock is released.
def Store.finishDelete (hash : Hash) : Slot × Except String Bool → Store × Reply
  | (slot, .ok true) =>
    ({ store.setSlot hash slot with memory := store.memory.remove hash }, .Deleted true)
  | (slot, .ok false) => (store.setSlot hash slot, .Deleted false)
  | (slot, .error message) => (store.setSlot hash slot, .Failed message)

def Store.perform : Event → Store × Reply
  | .Put data mediaType durability lease now fault =>
    store.put digest data mediaType durability lease now fault
  | .Prime update =>
    if update ∈ store.pending then
      ({ store with
          memory := store.memory.insert update
          pending := store.pending.erase update }, .Quiet)
    else
      (store, .Quiet)
  | .PutParts parts mediaType expectedSize expectedHash durability now fault =>
    match putPartFilesWithHash digest (store.disk expectedHash) parts mediaType expectedSize
        expectedHash durability now fault with
    | (slot, .ok hash) => (store.setSlot expectedHash slot, .Stored hash)
    | (slot, .error message) => (store.setSlot expectedHash slot, .Failed message)
  | .DeleteIfOlderThan hash cutoff fault =>
    if validateHash hash then
      store.finishDelete hash (deleteIfOlderThan (store.disk hash) cutoff fault)
    else
      (store, .Deleted false)
  | .DeleteIfEphemeral hash fault =>
    if validateHash hash then
      store.finishDelete hash (deleteIfEphemeral (store.disk hash) fault)
    else
      (store, .Deleted false)
  | .Release hash lease fault =>
    if validateHash hash then
      store.finishDelete hash (releaseEphemeralLease (store.disk hash) lease fault)
    else
      (store, .Deleted false)

abbrev Performs (before : Store) (event : Event) (after : Store) : Prop :=
  (before.perform digest event).1 = after

def Store.get (hash : Hash) : Option Bytes :=
  if validateHash hash then
    match store.memory.entries.find hash with
    | some entry => some entry.data
    | none => (store.disk hash).blob
  else
    none

def MemoryEntry.toMeta (entry : MemoryEntry) : BlobMeta :=
  ⟨entry.mediaType, entry.data.length, entry.createdAt, entry.durability, .empty⟩

def Store.getMeta (hash : Hash) : Option BlobMeta :=
  if validateHash hash then
    match store.memory.entries.find hash with
    | some entry => some entry.toMeta
    | none => (store.disk hash).record
  else
    none

-- The daemon and its runtime agents: one directory, and a memory layer in each process.
structure Shared (ι : Type) where
  disk : Hash → Slot
  memory : ι → MemoryLayer
  pending : ι → List Update

namespace Shared

variable {ι : Type}

def fresh (cap : Nat) : Shared ι := ⟨fun _ => .vacant, fun _ => .new cap, fun _ => []⟩

def view (shared : Shared ι) (process : ι) : Store :=
  ⟨shared.disk, shared.memory process, shared.pending process⟩

def perform [DecidableEq ι] (shared : Shared ι) (process : ι) (event : Event) :
    Shared ι × Reply :=
  let performed := (shared.view process).perform digest event
  (⟨performed.1.disk, Function.update shared.memory process performed.1.memory,
    Function.update shared.pending process performed.1.pending⟩, performed.2)

end Shared

end Nteract.BlobStore
