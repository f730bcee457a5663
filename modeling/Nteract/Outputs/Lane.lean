import Nteract.Lib.Agenda
import Nteract.Outputs.Committer

namespace Nteract.Outputs

open RuntimeDoc Lib.Agenda

variable {Terminal Data : Type}

-- Runs of chunks on one stream and ordinary outputs. `raises`: the output sends CellError.
inductive Arrival (Data : Type)
  | Run (streamName : Stdio) (chunks : List Bytes)
  | Output (output : NbformatOutput Data) (raises : Bool)
deriving DecidableEq

-- A chunk continues the last run if that is on the same stream.
def extendRun (arrivals : List (Arrival Data)) (streamName : Stdio) (text : Bytes) :
    List (Arrival Data) :=
  match arrivals.getLast? with
  | some (.Run other chunks) =>
    if other = streamName then arrivals.dropLast ++ [.Run streamName (chunks ++ [text])]
    else arrivals ++ [.Run streamName [text]]
  | _ => arrivals ++ [.Run streamName [text]]

-- The payload of an output with a display id may be one of an update_display_data.
def Shows (emulator : Emulator Terminal) (updated : String → Data → Prop) :
    Arrival Data → OutputManifest Data → Prop
  | .Run streamName chunks, .Stream name text =>
    name = streamName ∧ text = emulator.redact (emulator.rendered chunks)
  | .Output output _, .Ordinary stored =>
    stored.outputType = output.outputType ∧ stored.displayId = output.displayId ∧
      (stored.data = output.data ∨
        ∃ displayId, output.displayId = some displayId ∧ updated displayId stored.data)
  | _, _ => False

structure Segment where
  key : SegmentKey
  chunks : List Bytes
deriving DecidableEq

def Segment.arrival (segment : Segment) : Arrival Data :=
  .Run segment.key.streamName segment.chunks

-- The output that holds a first part of the first live segment.
structure Shown where
  outputId : Nat
  seq : Nat
  text : String
deriving DecidableEq

-- The arrivals that are done with, the segments that still have a terminal, and what the document
-- holds of the first of these.
structure Lane (Data : Type) where
  done : List (Arrival Data)
  live : List Segment
  shown : Option Shown
deriving DecidableEq

namespace Lane

def arrivals (lane : Lane Data) : List (Arrival Data) := lane.done ++ lane.live.map Segment.arrival

def keys (lane : Lane Data) : List SegmentKey := lane.live.map (·.key)

def shownEntries (executionId : ExecutionId) (lane : Lane Data) : List (OutputEntry Data) :=
  match lane.live, lane.shown with
  | segment :: _, some shown =>
    [⟨executionId, shown.outputId, shown.seq, .Stream segment.key.streamName shown.text⟩]
  | _, _ => []

def knownState (emulator : Emulator Terminal) (lane : Lane Data) : Option StreamOutputState :=
  lane.shown.map fun shown => ⟨shown.outputId, emulator.contentRef shown.text⟩

end Lane

-- A segment number that the stream has reached since the terminals were last cleared.
def StreamTerminals.Started (terminals : StreamTerminals Terminal) (key : SegmentKey) : Prop :=
  ∃ segment, terminals.currentSegments key.executionId key.streamName = some segment ∧
    key.segment ≤ segment

namespace CommitStage

-- The segment whose text was rendered and is not yet recorded.
def flying : CommitStage → Option (PendingStreamFlush × String)
  | .Idle => none
  | .Serving _ => none
  | .Rendered _ flush _ text => some (flush, text)
  | .Published _ flush _ text => some (flush, text)
  | .Upserted _ flush _ text => some (flush, text)

def request : CommitStage → Option PriorityStreamCommit
  | .Idle => none
  | .Serving request => some request
  | .Rendered request _ _ _ => some request
  | .Published request _ _ _ => some request
  | .Upserted request _ _ _ => some request

end CommitStage

section Projections

variable (emulator : Emulator Terminal) (executionId : ExecutionId)
  (pipeline : StreamPipeline Terminal Data)

-- The request's end is a point at which the execution's streams must be complete.
def PriorityStreamCommit.Ends (request : PriorityStreamCommit) : Prop :=
  request.signal = some (.ExecutionDone executionId) ∨ request.ack = some executionId

instance (request : PriorityStreamCommit) : Decidable (request.Ends executionId) :=
  inferInstanceAs (Decidable (_ ∨ _))

-- `none` stands for the end of a request that ends the execution.
def PriorityStreamCommit.marks (request : PriorityStreamCommit) : List (Option SegmentKey) :=
  request.flushes.map some ++ if request.Ends executionId then [none] else []

-- What is still to be rendered before anything periodic.
def queue : List (Option SegmentKey) :=
  (pipeline.stage.request.toList ++ pipeline.priority).flatMap (·.marks executionId)

-- `owed` is a flush that the reader is about to queue.
def agenda (owed : Option SegmentKey) : List (Option SegmentKey) :=
  (pipeline.stage.flying.map fun flying => some flying.1).toList ++
    (queue executionId pipeline ++ (owed.map some).toList)

def StreamPipeline.noted (key : SegmentKey) : Option StreamOutputState :=
  match pipeline.stage with
  | .Upserted _ flush outputId text =>
    if flush = key then some ⟨outputId, emulator.contentRef (emulator.redact text)⟩
    else pipeline.terminals.outputStates key
  | _ => pipeline.terminals.outputStates key

end Projections

-- The terminals of one execution. Only the last live segment is not sealed.
structure Hosts (emulator : Emulator Terminal) (executionId : ExecutionId)
    (terminals : StreamTerminals Terminal) (lane : Lane Data) : Prop where
  nodup : lane.keys.Nodup
  own : ∀ key ∈ lane.keys, key.executionId = executionId
  terminal : ∀ segment ∈ lane.live,
    terminals.terminals segment.key = some (emulator.fed segment.chunks)
  absent : ∀ key, key.executionId = executionId → key ∉ lane.keys →
    terminals.terminals key = none
  last : terminals.lastStream executionId = lane.keys.getLast?.map (·.streamName)
  current : ∀ key, lane.keys.getLast? = some key →
    terminals.currentSegments executionId key.streamName = some key.segment
  started : ∀ key ∈ lane.keys, terminals.Started key
  sealed : ∀ key, key.executionId = executionId →
    (key ∈ terminals.sealedSegments ↔ key ∈ lane.keys.dropLast)

-- What the committer has in the air is the first live segment.
def Carries (emulator : Emulator Terminal) (executionId : ExecutionId)
    (terminals : StreamTerminals Terminal) (lane : Lane Data) : CommitStage → Prop
  | .Rendered _ flush knownState _ | .Published _ flush knownState _ =>
    knownState = terminals.outputStates flush ∧
      (flush.executionId = executionId → lane.keys.head? = some flush)
  | .Upserted _ flush outputId text =>
    flush.executionId = executionId → lane.keys.head? = some flush ∧
      ∃ shown, lane.shown = some shown ∧ shown.outputId = outputId ∧
        shown.text = emulator.redact text
  | _ => True

structure Follows (emulator : Emulator Terminal) (executionId : ExecutionId)
    (pipeline : StreamPipeline Terminal Data) (lane : Lane Data) : Prop where
  hosts : Hosts emulator executionId pipeline.terminals lane
  noted : ∀ key, key.executionId = executionId → pipeline.noted emulator key =
    if lane.keys.head? = some key then lane.knownState emulator else none
  outputs : ∃ committed, pipeline.doc.outputsOf executionId =
      committed ++ lane.shownEntries executionId ∧
    List.Forall₂ (Shows emulator fun _ _ => False) lane.done (committed.map (·.manifest))
  unshown : lane.live = [] → lane.done = [] ∧ lane.shown = none
  carries : Carries emulator executionId pipeline.terminals lane pipeline.stage

-- All of the stream text is in the document, and what is in the air is no older.
def Steady (emulator : Emulator Terminal) (executionId : ExecutionId) (lane : Lane Data)
    (stage : CommitStage) : Prop :=
  lane.live = [] ∨ ∃ segment shown, lane.live = [segment] ∧ lane.shown = some shown ∧
    shown.text = emulator.redact (emulator.rendered segment.chunks) ∧
    ∀ flush text, stage.flying = some (flush, text) → flush.executionId = executionId →
      text = emulator.rendered segment.chunks

-- Nothing was fed to a sealed segment after the text in the air was rendered.
def Caught (emulator : Emulator Terminal) (executionId : ExecutionId)
    (pipeline : StreamPipeline Terminal Data) : Prop :=
  ∀ flush text, pipeline.stage.flying = some (flush, text) → flush.executionId = executionId →
    flush ∈ pipeline.terminals.sealedSegments →
    pipeline.terminals.renderSegment emulator flush = some text

instance (emulator : Emulator Terminal) (executionId : ExecutionId)
    (pipeline : StreamPipeline Terminal Data) :
    Decidable (Caught emulator executionId pipeline) :=
  match hf : pipeline.stage.flying with
  | none => .isTrue fun flush text hsome => by simp [hf] at hsome
  | some (flush, text) =>
    decidable_of_iff (flush.executionId = executionId →
        flush ∈ pipeline.terminals.sealedSegments →
        pipeline.terminals.renderSegment emulator flush = some text) <| by
      unfold Caught
      rw [hf]
      refine ⟨fun h _ _ hsome => ?_, fun h => h flush text rfl⟩
      obtain ⟨rfl, rfl⟩ := Prod.mk.inj (Option.some.inj hsome)
      exact h

-- The flush of a sealed segment that ingest_stream_chunk has not queued yet.
def Ingest.owed (ingest : Ingest) : Option SegmentKey :=
  match ingest.stage with
  | .Sealing placement =>
    placement.sealed.map fun sealed => ⟨ingest.executionId, sealed.streamName, sealed.segment⟩
  | .Recording _ => none

def Ingest.key (ingest : Ingest) : SegmentKey :=
  match ingest.stage with
  | .Sealing placement => ⟨ingest.executionId, ingest.streamName, placement.segment⟩
  | .Recording segment => ⟨ingest.executionId, ingest.streamName, segment⟩

end Nteract.Outputs
