import Nteract.Outputs.Document

namespace Nteract.Outputs

open RuntimeDoc Lib Function

structure SegmentKey where
  executionId : ExecutionId
  streamName : Stdio
  segment : Nat
deriving DecidableEq

abbrev Bytes := List UInt8

-- `redact` replaces the values of the environment that must not be shown, `contentRef` is the
-- reference under which a manifest holds a text.
structure Emulator (Terminal : Type) where
  new : Terminal
  advance : Terminal → Bytes → Terminal
  serializeToAnsi : Terminal → String
  redact : String → String
  contentRef : String → String

variable {Terminal : Type}

namespace Emulator

def NEWLINE : UInt8 := 10

def CARRIAGE_RETURN : UInt8 := 13

variable (emulator : Emulator Terminal)

-- A line feed alone would not return to the first column.
def feed (terminal : Terminal) (text : Bytes) : Terminal :=
  text.foldl (fun terminal byte =>
    if byte = NEWLINE then emulator.advance terminal [CARRIAGE_RETURN, NEWLINE]
    else emulator.advance terminal [byte]) terminal

-- A terminal of its own that was fed some chunks, and what it shows.
def fed (chunks : List Bytes) : Terminal :=
  chunks.foldl emulator.feed emulator.new

def rendered (chunks : List Bytes) : String :=
  emulator.serializeToAnsi (emulator.fed chunks)

theorem fed_append (chunks : List Bytes) (text : Bytes) :
    emulator.fed (chunks ++ [text]) = emulator.feed (emulator.fed chunks) text := by
  simp [fed]

end Emulator

structure SealedStreamSegment where
  streamName : Stdio
  segment : Nat
deriving DecidableEq

structure StreamChunkPlacement where
  segment : Nat
  sealed : Option SealedStreamSegment
deriving DecidableEq

structure StreamTerminals (Terminal : Type) where
  terminals : SegmentKey → Option Terminal
  outputStates : SegmentKey → Option StreamOutputState
  currentSegments : ExecutionId → Stdio → Option Nat
  lastStream : ExecutionId → Option Stdio
  sealedSegments : Finset SegmentKey

namespace StreamTerminals

def new : StreamTerminals Terminal where
  terminals _ := none
  outputStates _ := none
  currentSegments _ _ := none
  lastStream _ := none
  sealedSegments := ∅

variable (emulator : Emulator Terminal) (terminals : StreamTerminals Terminal)
  (executionId : ExecutionId) (streamName : Stdio) (text : Bytes)

-- A chunk that switches streams seals the other segment and moves on to a fresh one.
def switchStream : StreamTerminals Terminal × Option SealedStreamSegment :=
  match terminals.lastStream executionId with
  | none => (terminals, none)
  | some previous =>
    if previous = streamName then
      (terminals, none)
    else
      let current := update terminals.currentSegments executionId
        (update (terminals.currentSegments executionId) streamName
          ((terminals.currentSegments executionId streamName).map (· + 1)))
      match terminals.currentSegments executionId previous with
      | none => ({ terminals with currentSegments := current }, none)
      | some segment =>
        ({ terminals with
            currentSegments := current
            sealedSegments := insert ⟨executionId, previous, segment⟩ terminals.sealedSegments },
          some ⟨previous, segment⟩)

-- The second half: the text goes to the stream's current segment.
def write : StreamTerminals Terminal × Nat :=
  let segment := (terminals.currentSegments executionId streamName).getD 0
  let key : SegmentKey := ⟨executionId, streamName, segment⟩
  ({ terminals with
      lastStream := update terminals.lastStream executionId (some streamName)
      currentSegments := update terminals.currentSegments executionId
        (update (terminals.currentSegments executionId) streamName (some segment))
      terminals := update terminals.terminals key
        (some (emulator.feed ((terminals.terminals key).getD emulator.new) text)) },
    segment)

def feedChunk : StreamTerminals Terminal × StreamChunkPlacement :=
  let switched := terminals.switchStream executionId streamName
  let written := switched.1.write emulator executionId streamName text
  (written.1, ⟨written.2, switched.2⟩)

def renderSegment (key : SegmentKey) : Option String :=
  (terminals.terminals key).map emulator.serializeToAnsi

def clear : StreamTerminals Terminal where
  terminals key := if key.executionId = executionId then none else terminals.terminals key
  outputStates key := if key.executionId = executionId then none else terminals.outputStates key
  currentSegments := update terminals.currentSegments executionId fun _ => none
  lastStream := update terminals.lastStream executionId none
  sealedSegments := terminals.sealedSegments.filter (·.executionId ≠ executionId)

def setSegmentOutputState (key : SegmentKey) (state : StreamOutputState) :
    StreamTerminals Terminal :=
  { terminals with outputStates := update terminals.outputStates key (some state) }

-- A segment that is not sealed still receives chunks, so it stays.
def retireSegment (key : SegmentKey) : StreamTerminals Terminal :=
  if key ∈ terminals.sealedSegments then
    { terminals with
      terminals := update terminals.terminals key none
      outputStates := update terminals.outputStates key none
      sealedSegments := terminals.sealedSegments.erase key }
  else
    terminals

-- The execution's last chunk, if any, was on the same stream.
def Continues : Prop :=
  ∀ previous, terminals.lastStream executionId = some previous → previous = streamName

theorem switchStream_continues {terminals : StreamTerminals Terminal} {executionId : ExecutionId}
    {streamName : Stdio} (hc : terminals.Continues executionId streamName) :
    terminals.switchStream executionId streamName = (terminals, none) := by
  unfold switchStream
  cases hl : terminals.lastStream executionId with
  | none => rfl
  | some previous => simp [hc previous hl]

theorem switchStream_switches {terminals : StreamTerminals Terminal} {executionId : ExecutionId}
    {streamName previous : Stdio} {segment : Nat}
    (hl : terminals.lastStream executionId = some previous) (hne : previous ≠ streamName)
    (hs : terminals.currentSegments executionId previous = some segment) :
    terminals.switchStream executionId streamName = ({ terminals with
          currentSegments := update terminals.currentSegments executionId
            (update (terminals.currentSegments executionId) streamName
              ((terminals.currentSegments executionId streamName).map (· + 1)))
          sealedSegments := insert ⟨executionId, previous, segment⟩ terminals.sealedSegments },
        some ⟨previous, segment⟩) := by
  unfold switchStream
  simp [hl, hs, if_neg hne]

section Feeding

variable {segment : Nat}

theorem feedChunk_continues (hc : terminals.Continues executionId streamName) :
    (terminals.feedChunk emulator executionId streamName text).2 =
      ⟨(terminals.currentSegments executionId streamName).getD 0, none⟩ := by
  unfold feedChunk write
  rw [switchStream_continues hc]

theorem feedChunk_switches (hl : terminals.lastStream executionId = some previous)
    (hne : previous ≠ streamName)
    (hs : terminals.currentSegments executionId previous = some segment) :
    (terminals.feedChunk emulator executionId streamName text).2 =
      ⟨((terminals.currentSegments executionId streamName).map (· + 1)).getD 0,
        some ⟨previous, segment⟩⟩ := by
  unfold feedChunk write
  rw [switchStream_switches hl hne hs]
  simp

theorem switchStream_frame :
    (terminals.switchStream executionId streamName).1.terminals = terminals.terminals ∧
    (terminals.switchStream executionId streamName).1.outputStates = terminals.outputStates ∧
    (terminals.switchStream executionId streamName).1.lastStream = terminals.lastStream := by
  unfold switchStream
  split
  · exact ⟨rfl, rfl, rfl⟩
  · split
    · exact ⟨rfl, rfl, rfl⟩
    · split <;> exact ⟨rfl, rfl, rfl⟩

theorem switchStream_currentSegments (other : ExecutionId) (name : Stdio)
    (ho : ¬(other = executionId ∧ name = streamName)) :
    (terminals.switchStream executionId streamName).1.currentSegments other name =
      terminals.currentSegments other name := by
  have hu : update terminals.currentSegments executionId
      (update (terminals.currentSegments executionId) streamName
        ((terminals.currentSegments executionId streamName).map (· + 1))) other name =
      terminals.currentSegments other name := by
    by_cases he : other = executionId
    · subst he
      have hn : name ≠ streamName := fun h => ho ⟨rfl, h⟩
      simp [hn]
    · simp [he]
  unfold switchStream
  split
  · rfl
  · split
    · rfl
    · split <;> exact hu

theorem switchStream_sealedSegments :
    (terminals.switchStream executionId streamName).1.sealedSegments =
      match (terminals.switchStream executionId streamName).2 with
      | none => terminals.sealedSegments
      | some sealed =>
        insert ⟨executionId, sealed.streamName, sealed.segment⟩ terminals.sealedSegments := by
  unfold switchStream
  split
  · rfl
  · split
    · rfl
    · split <;> rfl

theorem feedChunk_terminals :
    (terminals.feedChunk emulator executionId streamName text).1.terminals =
      let key : SegmentKey := ⟨executionId, streamName,
        (terminals.feedChunk emulator executionId streamName text).2.segment⟩
      update terminals.terminals key
        (some (emulator.feed ((terminals.terminals key).getD emulator.new) text)) := by
  simp [feedChunk, write, (switchStream_frame terminals executionId streamName).1]

theorem feedChunk_outputStates :
    (terminals.feedChunk emulator executionId streamName text).1.outputStates =
      terminals.outputStates :=
  (switchStream_frame terminals executionId streamName).2.1

theorem feedChunk_lastStream :
    (terminals.feedChunk emulator executionId streamName text).1.lastStream =
      update terminals.lastStream executionId (some streamName) := by
  simp [feedChunk, write, (switchStream_frame terminals executionId streamName).2.2]

theorem feedChunk_currentSegments (other : ExecutionId) (name : Stdio) :
    (terminals.feedChunk emulator executionId streamName text).1.currentSegments other name =
      if other = executionId ∧ name = streamName then
        some (terminals.feedChunk emulator executionId streamName text).2.segment
      else
        terminals.currentSegments other name := by
  by_cases hh : other = executionId ∧ name = streamName
  · obtain ⟨rfl, rfl⟩ := hh
    simp [feedChunk, write]
  · rw [← switchStream_currentSegments terminals executionId streamName other name hh]
    unfold feedChunk write
    by_cases he : other = executionId
    · subst he
      have hn : name ≠ streamName := fun h => hh ⟨rfl, h⟩
      simp [hn]
    · simp [he]

theorem feedChunk_sealedSegments :
    (terminals.feedChunk emulator executionId streamName text).1.sealedSegments =
      match (terminals.feedChunk emulator executionId streamName text).2.sealed with
      | none => terminals.sealedSegments
      | some sealed =>
        insert ⟨executionId, sealed.streamName, sealed.segment⟩ terminals.sealedSegments :=
  switchStream_sealedSegments terminals executionId streamName

theorem feedChunk_segment :
    ∃ step ≤ 1, (terminals.feedChunk emulator executionId streamName text).2.segment =
        ((terminals.currentSegments executionId streamName).map (· + step)).getD 0 ∧
      ((terminals.feedChunk emulator executionId streamName text).2.sealed ≠ none → step = 1) := by
  unfold feedChunk write switchStream
  split
  · exact ⟨0, by simp, by simp, by simp⟩
  · split
    · exact ⟨0, by simp, by simp, by simp⟩
    · split <;> exact ⟨1, by simp, by simp, by simp⟩

end Feeding

end StreamTerminals

abbrev PendingStreamFlush := SegmentKey

def STREAM_FLUSH_MAX_DELAY : Nat := 75

def STREAM_FLUSH_MAX_BYTES : Nat := 64 * 1024

structure StreamFlushEntry where
  pendingBytes : Nat
  hasFlushed : Bool
  lastFlush : Nat
deriving DecidableEq

-- Times are milliseconds.
structure StreamFlushBuffer where
  maxDelay : Nat
  maxBytes : Nat
  entries : Table SegmentKey StreamFlushEntry
deriving DecidableEq

namespace StreamFlushBuffer

def default : StreamFlushBuffer := ⟨STREAM_FLUSH_MAX_DELAY, STREAM_FLUSH_MAX_BYTES, .empty⟩

variable (buffer : StreamFlushBuffer)

def takeKey (key : SegmentKey) (now : Nat) : StreamFlushBuffer × Option PendingStreamFlush :=
  match buffer.entries.find key with
  | none => (buffer, none)
  | some _ => ({ buffer with entries := buffer.entries.adjust key fun _ => ⟨0, true, now⟩ }, some key)

def takeSegment (key : SegmentKey) (now : Nat) : StreamFlushBuffer × Option PendingStreamFlush :=
  buffer.takeKey key now

-- A segment flushes at once the first time, then when enough bytes or enough time passed.
def recordChunk (key : SegmentKey) (chunkBytes now : Nat) :
    StreamFlushBuffer × Option PendingStreamFlush :=
  let entry := (buffer.entries.find key).getD ⟨0, false, now⟩
  let pendingBytes := entry.pendingBytes + chunkBytes
  let recorded := { buffer with
    entries := buffer.entries.set key { entry with pendingBytes := pendingBytes } }
  let delayElapsed := entry.hasFlushed && decide (buffer.maxDelay ≤ now - entry.lastFlush)
  let bytesExceeded := decide (buffer.maxBytes ≤ pendingBytes)
  if !entry.hasFlushed || delayElapsed || bytesExceeded then recorded.takeKey key now
  else (recorded, none)

def keysOf (executionId : ExecutionId) : List SegmentKey :=
  (buffer.entries.entries.map Prod.fst).filter (·.executionId = executionId)

-- A hash map's keys in any order, then sorted by segment number.
def IsFlushOrder (executionId : ExecutionId) (keys : List SegmentKey) : Prop :=
  keys.Perm (buffer.keysOf executionId) ∧ keys.Pairwise (·.segment ≤ ·.segment)

instance (buffer : StreamFlushBuffer) (executionId : ExecutionId) (keys : List SegmentKey) :
    Decidable (buffer.IsFlushOrder executionId keys) :=
  inferInstanceAs (Decidable (_ ∧ _))

def flushExecution (now : Nat) : List SegmentKey → StreamFlushBuffer →
    StreamFlushBuffer × List PendingStreamFlush
  | [], buffer => (buffer, [])
  | key :: keys, buffer =>
    let taken := buffer.takeKey key now
    let rest := flushExecution now keys taken.1
    (rest.1, taken.2.toList ++ rest.2)

def clearExecution (executionId : ExecutionId) : StreamFlushBuffer :=
  { buffer with entries := buffer.entries.retain (·.executionId ≠ executionId) }

def Holds (key : SegmentKey) : Prop := buffer.entries.find key ≠ none

variable {buffer}

theorem mem_keysOf :
    key ∈ buffer.keysOf executionId ↔ buffer.Holds key ∧ key.executionId = executionId := by
  simp [keysOf, Holds, ← Table.mem_keys]

theorem takeKey_holds (buffer : StreamFlushBuffer) (key other : SegmentKey) (now : Nat) :
    (buffer.takeKey key now).1.Holds other ↔ buffer.Holds other := by
  unfold takeKey Holds
  split
  · rfl
  · rw [Table.find_adjust]
    split <;> simp

theorem takeKey_held (hk : buffer.Holds key) (now : Nat) :
    (buffer.takeKey key now).2 = some key := by
  unfold takeKey
  obtain ⟨_, he⟩ := Option.ne_none_iff_exists'.mp hk
  simp [he]

theorem takeKey_eq_some (ht : (buffer.takeKey key now).2 = some flush) : flush = key := by
  unfold takeKey at ht
  split at ht
  · cases ht
  · exact (Option.some.inj ht).symm

theorem recordChunk_holds (buffer : StreamFlushBuffer) (key other : SegmentKey)
    (chunkBytes now : Nat) :
    (buffer.recordChunk key chunkBytes now).1.Holds other ↔ buffer.Holds other ∨ other = key := by
  have hs : ∀ entry, ({ buffer with entries := buffer.entries.set key entry } :
      StreamFlushBuffer).Holds other ↔ buffer.Holds other ∨ other = key := by
    intro entry
    unfold Holds
    rw [Table.find_set]
    by_cases he : other = key <;> simp [he]
  unfold recordChunk
  dsimp only
  split
  · rw [takeKey_holds]
    exact hs _
  · exact hs _

theorem recordChunk_eq_some (hr : (buffer.recordChunk key chunkBytes now).2 = some flush) :
    flush = key := by
  unfold recordChunk at hr
  dsimp only at hr
  split at hr
  · exact takeKey_eq_some hr
  · cases hr

theorem flushExecution_holds (now : Nat) (keys : List SegmentKey) (buffer : StreamFlushBuffer)
    (other : SegmentKey) : (buffer.flushExecution now keys).1.Holds other ↔ buffer.Holds other := by
  induction keys generalizing buffer with
  | nil => rfl
  | cons _ _ ih =>
    unfold flushExecution
    rw [ih, takeKey_holds]

theorem flushExecution_flushes (hk : ∀ key ∈ keys, buffer.Holds key) :
    (buffer.flushExecution now keys).2 = keys := by
  induction keys generalizing buffer with
  | nil => rfl
  | cons key keys ih =>
    rw [List.forall_mem_cons] at hk
    unfold flushExecution
    have hr : ∀ other ∈ keys, (buffer.takeKey key now).1.Holds other :=
      fun other hm => (takeKey_holds buffer key other now).mpr (hk.2 other hm)
    simp only [takeKey_held hk.1, ih hr]
    rfl

theorem clearExecution_holds (buffer : StreamFlushBuffer) (executionId : ExecutionId)
    (key : SegmentKey) :
    (buffer.clearExecution executionId).Holds key ↔
      buffer.Holds key ∧ key.executionId ≠ executionId := by
  unfold clearExecution Holds
  rw [Table.find_retain]
  by_cases he : key.executionId = executionId <;> simp [he]

theorem IsFlushOrder.mem {executionId : ExecutionId} (ho : buffer.IsFlushOrder executionId keys) :
    key ∈ keys ↔ buffer.Holds key ∧ key.executionId = executionId := by
  rw [ho.1.mem_iff, mem_keysOf]

end StreamFlushBuffer

end Nteract.Outputs
