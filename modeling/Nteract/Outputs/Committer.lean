import Nteract.Outputs.Terminals

namespace Nteract.Outputs

open RuntimeDoc

inductive LifecycleSignal
  | KernelIdle (executionId : ExecutionId)
  | CellError (executionId : ExecutionId)
  | ExecutionDone (executionId : ExecutionId)
deriving DecidableEq

-- `ack` is the execution whose boundary waits for the acknowledgement.
structure PriorityStreamCommit where
  flushes : List PendingStreamFlush
  signal : Option LifecycleSignal
  ack : Option ExecutionId
deriving DecidableEq

-- commit_stream_flush, split at its await points: rendered under the lock, published, written to
-- the document, recorded under the lock.
inductive CommitStage
  | Idle
  | Serving (request : PriorityStreamCommit)
  | Rendered (request : PriorityStreamCommit) (flush : PendingStreamFlush)
      (knownState : Option StreamOutputState) (text : String)
  | Published (request : PriorityStreamCommit) (flush : PendingStreamFlush)
      (knownState : Option StreamOutputState) (text : String)
  | Upserted (request : PriorityStreamCommit) (flush : PendingStreamFlush) (outputId : Nat)
      (text : String)
deriving DecidableEq

def STREAM_COMMITTER_QUEUE_CAPACITY : Nat := 32

-- `acked` is the last acknowledgement that was given and not yet seen.
structure StreamPipeline (Terminal Data : Type) where
  terminals : StreamTerminals Terminal
  flushes : StreamFlushBuffer
  priority : List PriorityStreamCommit
  periodic : List PendingStreamFlush
  stage : CommitStage
  acked : Option ExecutionId
  doc : OutputMap Data
  signals : List LifecycleSignal

-- What is left of ingest_stream_chunk once the chunk has been fed.
inductive IngestStage
  | Sealing (placement : StreamChunkPlacement)
  | Recording (segment : Nat)
deriving DecidableEq

structure Ingest where
  executionId : ExecutionId
  streamName : Stdio
  chunkBytes : Nat
  now : Nat
  stage : IngestStage
deriving DecidableEq

namespace StreamPipeline

variable {Terminal Data : Type}

def new : StreamPipeline Terminal Data where
  terminals := .new
  flushes := .default
  priority := []
  periodic := []
  stage := .Idle
  acked := none
  doc := .empty
  signals := []

-- The reader's side.

variable (emulator : Emulator Terminal) (pipeline : StreamPipeline Terminal Data)

-- A periodic flush may be lost, and is when the queue is full.
def requestFlush (flush : PendingStreamFlush) (dropped : Bool) : StreamPipeline Terminal Data :=
  if dropped ∨ STREAM_COMMITTER_QUEUE_CAPACITY ≤ pipeline.periodic.length then pipeline
  else { pipeline with periodic := pipeline.periodic ++ [flush] }

def requestPriority (request : PriorityStreamCommit) : StreamPipeline Terminal Data :=
  { pipeline with priority := pipeline.priority ++ [request] }

def requestOrderedFlush (flush : PendingStreamFlush) : StreamPipeline Terminal Data :=
  pipeline.requestPriority ⟨[flush], none, none⟩

-- Without anything to flush there is nothing to wait for.
def flushForOrdering (executionId : ExecutionId) (flushes : List PendingStreamFlush) :
    StreamPipeline Terminal Data :=
  if flushes = [] then { pipeline with acked := some executionId }
  else pipeline.requestPriority ⟨flushes, none, some executionId⟩

def flushThenSignal (flushes : List PendingStreamFlush) (signal : LifecycleSignal) :
    StreamPipeline Terminal Data :=
  pipeline.requestPriority ⟨flushes, some signal, none⟩

-- flush_execution and clear_execution, which every boundary calls together.
def takeExecution (executionId : ExecutionId) (keys : List SegmentKey) (now : Nat) :
    StreamPipeline Terminal Data × List PendingStreamFlush :=
  let flushed := pipeline.flushes.flushExecution now keys
  ({ pipeline with flushes := flushed.1.clearExecution executionId }, flushed.2)

def feedChunk (executionId : ExecutionId) (streamName : Stdio) (text : Bytes) (now : Nat) :
    StreamPipeline Terminal Data × Ingest :=
  let fed := pipeline.terminals.feedChunk emulator executionId streamName text
  ({ pipeline with terminals := fed.1 },
    ⟨executionId, streamName, text.length, now, .Sealing fed.2⟩)

-- The sealed segment is queued ahead of everything periodic, then the chunk is recorded.
def ingestStep (ingest : Ingest) (dropped : Bool) : StreamPipeline Terminal Data × Option Ingest :=
  match ingest.stage with
  | .Sealing placement =>
    let next := some { ingest with stage := .Recording placement.segment }
    match placement.sealed with
    | none => (pipeline, next)
    | some sealed =>
      let taken := pipeline.flushes.takeSegment
        ⟨ingest.executionId, sealed.streamName, sealed.segment⟩ ingest.now
      let pipeline := { pipeline with flushes := taken.1 }
      match taken.2 with
      | none => (pipeline, next)
      | some flush => (pipeline.requestOrderedFlush flush, next)
  | .Recording segment =>
    let recorded := pipeline.flushes.recordChunk
      ⟨ingest.executionId, ingest.streamName, segment⟩ ingest.chunkBytes ingest.now
    let pipeline := { pipeline with flushes := recorded.1 }
    match recorded.2 with
    | none => (pipeline, none)
    | some flush => (pipeline.requestFlush flush dropped, none)

-- The committer's side.

-- The biased select: a priority request is served before any periodic flush.
def take : Option (StreamPipeline Terminal Data) :=
  match pipeline.priority, pipeline.periodic with
  | request :: priority, _ =>
    some { pipeline with priority := priority, stage := .Serving request }
  | [], flush :: periodic =>
    some { pipeline with periodic := periodic, stage := .Serving ⟨[flush], none, none⟩ }
  | [], [] => none

variable (request : PriorityStreamCommit) (flush : PendingStreamFlush)

-- A segment without a terminal was retired or cleared, so its flush is stale.
def render : StreamPipeline Terminal Data :=
  match pipeline.terminals.renderSegment emulator flush with
  | none => { pipeline with stage := .Serving request }
  | some text =>
    { pipeline with
      stage := .Rendered request flush (pipeline.terminals.outputStates flush) text }

def upsert (knownState : Option StreamOutputState) (text : String) : StreamPipeline Terminal Data :=
  let upserted := pipeline.doc.upsertStreamOutput emulator.contentRef flush.executionId
    (.Stream flush.streamName (emulator.redact text)) knownState
  { pipeline with doc := upserted.1, stage := .Upserted request flush upserted.2.2 text }

def record (outputId : Nat) (text : String) : StreamPipeline Terminal Data :=
  let state : StreamOutputState := ⟨outputId, emulator.contentRef (emulator.redact text)⟩
  { pipeline with
    terminals := (pipeline.terminals.setSegmentOutputState flush state).retireSegment flush
    stage := .Serving request }

def finish : StreamPipeline Terminal Data :=
  { pipeline with
    stage := .Idle
    signals := pipeline.signals ++ request.signal.toList
    acked := request.ack.orElse fun _ => pipeline.acked }

def commitStep : Option (StreamPipeline Terminal Data) :=
  match pipeline.stage with
  | .Idle => pipeline.take
  | .Serving request =>
    match request.flushes with
    | [] => some (pipeline.finish request)
    | flush :: flushes =>
      some (pipeline.render emulator { request with flushes := flushes } flush)
  | .Rendered request flush knownState text =>
    some { pipeline with stage := .Published request flush knownState text }
  | .Published request flush knownState text =>
    some (pipeline.upsert emulator request flush knownState text)
  | .Upserted request flush outputId text =>
    some (pipeline.record emulator request flush outputId text)

end StreamPipeline

end Nteract.Outputs
