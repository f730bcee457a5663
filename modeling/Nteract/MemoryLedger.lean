import Mathlib

namespace Nteract.MemoryLedger

open Finset Function List

def U64_MAX : Nat := 2 ^ 64 - 1

structure Buffer where
  dataPtr : Nat
  capacity : Nat
  ptrOffset : Nat
  len : Nat

inductive ArrayData
  | mk (buffers : List Buffer) (nulls : Option Buffer) (childData : List ArrayData)

structure FileMemory where
  allocations : Nat → Option Nat
  bytes : Nat

-- The sizes before a batch touched them, in the order of the touches.
abbrev AllocationUndo := List (Nat × Option Nat)

inductive Charge
  | Metadata (size : Nat)
  | Extent (key size : Nat)

-- add_buffer, with a usize of 64 bits, the wider of the two targets.
def Buffer.charge (buffer : Buffer) : Charge :=
  .Extent buffer.dataPtr (max buffer.capacity (min U64_MAX (buffer.ptrOffset + buffer.len)))

def addCharge : FileMemory × AllocationUndo → Charge → FileMemory × AllocationUndo
  | (memory, undo), .Metadata size =>
    ({ memory with bytes := min U64_MAX (memory.bytes + size) }, undo)
  | (memory, undo), .Extent key size =>
    let previous := (memory.allocations key).getD 0
    (⟨update memory.allocations key (some (max previous size)),
      min U64_MAX (memory.bytes + (size - previous))⟩, undo ++ [(key, memory.allocations key)])

def restore (allocations : Nat → Option Nat) (undo : AllocationUndo) : Nat → Option Nat :=
  undo.reverse.foldl (fun allocations entry => update allocations entry.1 entry.2)
    allocations

section Batches

variable (arraySize bufferSize : Nat)

mutual

-- What add_array_logged adds, in its order.
def arrayCharges : ArrayData → List Charge
  | .mk buffers nulls childData =>
    .Metadata arraySize :: buffers.flatMap (fun buffer => [.Metadata bufferSize, buffer.charge]) ++
      nulls.toList.map Buffer.charge ++ columnCharges childData

def columnCharges : List ArrayData → List Charge
  | [] => []
  | column :: columns => arrayCharges column ++ columnCharges columns

end

def tryAddBatch (memory : FileMemory) (columns : List ArrayData) (limit : Nat) :
    FileMemory × Bool :=
  let added := (columnCharges arraySize bufferSize columns).foldl addCharge (memory, [])
  if added.1.bytes ≤ limit then (added.1, true)
  else (⟨restore added.1.allocations added.2, memory.bytes⟩, false)

-- A ledger with the charges of the batches that it accepted.
def performCall (ledger : FileMemory × List Charge) (call : List ArrayData × Nat) :
    FileMemory × List Charge :=
  match tryAddBatch arraySize bufferSize ledger.1 call.1 call.2 with
  | (memory, true) => (memory, ledger.2 ++ columnCharges arraySize bufferSize call.1)
  | (memory, false) => (memory, ledger.2)

def afterCalls (calls : List (List ArrayData × Nat)) : FileMemory × List Charge :=
  calls.foldl (performCall arraySize bufferSize) (⟨fun _ => none, 0⟩, [])

end Batches

def Charge.metadata : Charge → Nat
  | .Metadata size => size
  | .Extent .. => 0

def Charge.key : Charge → Option Nat
  | .Metadata _ => none
  | .Extent key _ => some key

def Charge.sizeAt (key : Nat) : Charge → Nat
  | .Metadata _ => 0
  | .Extent other size => if other = key then size else 0

def keys (charges : List Charge) : Finset Nat := (charges.filterMap Charge.key).toFinset

-- The largest extent that was charged for an allocation.
def extent (charges : List Charge) (key : Nat) : Nat :=
  (charges.map (Charge.sizeAt key)).foldl max 0

def total (charges : List Charge) : Nat :=
  (charges.map Charge.metadata).sum + ∑ key ∈ keys charges, extent charges key

structure Exact (charges : List Charge) (memory : FileMemory) : Prop where
  allocations : ∀ key, memory.allocations key =
    if key ∈ keys charges then some (extent charges key) else none
  bytes : memory.bytes = min U64_MAX (total charges)

@[simp] theorem extent_append : extent (charges ++ [charge]) key =
    max (extent charges key) (charge.sizeAt key) := by
  simp [extent]

@[simp] theorem keys_metadata : keys (charges ++ [.Metadata size]) = keys charges := by
  simp [keys, Charge.key, filterMap_cons]

@[simp] theorem keys_extent : keys (charges ++ [.Extent key size]) = insert key (keys charges) := by
  simp [keys, Charge.key]

theorem extent_of_not_mem (hk : key ∉ keys charges) : extent charges key = 0 := by
  induction charges using reverseRecOn with
  | nil => rfl
  | append_singleton charges charge ih =>
    cases charge with
    | Metadata =>
      rw [keys_metadata] at hk
      simp [ih hk, Charge.sizeAt]
    | Extent =>
      rw [keys_extent, mem_insert, not_or] at hk
      simp [ih hk.2, Charge.sizeAt, Ne.symm hk.1]

-- Only what goes beyond the largest extent so far is added.
theorem total_extent : total (charges ++ [.Extent key size]) =
    total charges + (size - extent charges key) := by
  have hgrown : extent (charges ++ [.Extent key size]) =
      update (extent charges) key (max (extent charges key) size) := by
    funext other
    by_cases ho : other = key
    · simp [ho, Charge.sizeAt]
    · simp [ho, Charge.sizeAt, Ne.symm ho]
  have hin := mem_insert_self key (keys charges)
  have hold := add_sum_erase _ (extent charges) hin
  rw [sum_insert_of_eq_zero_if_notMem extent_of_not_mem] at hold
  have hnew := sum_update_of_mem hin (extent charges) (max (extent charges key) size)
  rw [sdiff_singleton_eq_erase] at hnew
  have hm : ((charges ++ [Charge.Extent key size]).map Charge.metadata).sum =
      (charges.map Charge.metadata).sum := by
    simp [Charge.metadata]
  rw [total, keys_extent, hgrown, hnew, hm]
  unfold total
  omega

theorem exact_addCharge (he : Exact charges state.1) (charge : Charge) :
    Exact (charges ++ [charge]) (addCharge state charge).1 := by
  cases charge with
  | Metadata =>
    refine ⟨fun key => ?_, ?_⟩
    · simpa [addCharge, Charge.sizeAt] using he.allocations key
    · simp [addCharge, he.bytes, total, Charge.sizeAt, Charge.metadata]
      omega
  | Extent key =>
    have hp : (state.1.allocations key).getD 0 = extent charges key := by
      rw [he.allocations key]
      split
      · rfl
      · exact (extent_of_not_mem ‹_›).symm
    refine ⟨fun other => ?_, ?_⟩
    · by_cases ho : other = key
      · simp [addCharge, hp, ho, Charge.sizeAt]
      · simpa [addCharge, ho, Ne.symm ho, Charge.sizeAt] using he.allocations other
    · simp only [addCharge, hp, he.bytes, total_extent]
      omega

theorem exact_foldl (added : List Charge) (he : Exact charges state.1) :
    Exact (charges ++ added) (added.foldl addCharge state).1 ∧
      restore (added.foldl addCharge state).1.allocations (added.foldl addCharge state).2 =
        restore state.1.allocations state.2 := by
  induction added generalizing charges state with
  | nil => simpa using he
  | cons charge added ih =>
    obtain ⟨ha, hr⟩ := ih (exact_addCharge he charge)
    rw [append_assoc] at ha
    refine ⟨ha, hr.trans ?_⟩
    cases charge with
    | Metadata => rfl
    | Extent => simp [addCharge, restore]

theorem tryAddBatch_exact (he : Exact charges memory) :
    (∃ after, tryAddBatch arraySize bufferSize memory columns limit = (after, true) ∧
      after.bytes ≤ limit ∧ Exact (charges ++ columnCharges arraySize bufferSize columns) after) ∨
    tryAddBatch arraySize bufferSize memory columns limit = (memory, false) := by
  obtain ⟨ha, hr⟩ := @exact_foldl _ (memory, []) (columnCharges arraySize bufferSize columns) he
  unfold tryAddBatch
  dsimp only
  split
  · exact .inl ⟨_, rfl, ‹_›, ha⟩
  · rw [hr]
    exact .inr rfl

theorem performCall_exact (he : Exact ledger.2 ledger.1) (call : List ArrayData × Nat) :
    Exact (performCall arraySize bufferSize ledger call).2
      (performCall arraySize bufferSize ledger call).1 := by
  unfold performCall
  rcases tryAddBatch_exact he with ⟨after, ha, -, he⟩ | hr
  · rw [ha]
    exact he
  · rw [hr]
    exact he

-- A refused batch leaves no trace. Only a sum above u64::MAX is cut down to it.
theorem memory_ledger_exact (arraySize bufferSize : Nat) (calls : List (List ArrayData × Nat))
    (columns : List ArrayData) (limit : Nat) :
    let ledger := afterCalls arraySize bufferSize calls
    let result := tryAddBatch arraySize bufferSize ledger.1 columns limit
    ledger.1.bytes = min U64_MAX (total ledger.2) ∧ (result.2 = false → result.1 = ledger.1) ∧
      (result.2 = true → result.1.bytes ≤ limit) := by
  intro ledger result
  have he : Exact ledger.2 ledger.1 :=
    foldlRecOn (motive := fun ledger : FileMemory × List Charge => Exact ledger.2 ledger.1)
      calls _ ⟨fun _ => rfl, rfl⟩ fun _ he call _ => performCall_exact he call
  refine ⟨he.bytes, ?_⟩
  rcases tryAddBatch_exact he with ⟨after, ha, hl, -⟩ | hr
  · rw [show result = _ from ha]
    exact ⟨nofun, fun _ => hl⟩
  · rw [show result = _ from hr]
    exact ⟨fun _ => rfl, nofun⟩

-- Two allocations of the largest size pass for the limit u64::MAX.
theorem saturated_total_accepted :
    let half : Nat → Buffer := fun dataPtr => ⟨dataPtr, 2 ^ 63 - 1, 0, 0⟩
    let ledger := afterCalls 136 24 [([.mk [half 0, half 1] none []], U64_MAX)]
    ledger.1.bytes = U64_MAX ∧ total ledger.2 = U64_MAX + 183 := by
  decide +kernel

end Nteract.MemoryLedger
