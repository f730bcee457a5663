import Nteract.Lib.Transition
import Nteract.Outputs.Lane.Reader

namespace Nteract.Outputs

open RuntimeDoc Lib.Agenda Lib.Transition List Option

variable {Terminal Data : Type}

structure StreamChunk where
  executionId : ExecutionId
  streamName : Stdio
  text : Bytes
deriving DecidableEq

-- Where the reader stands. `Awaiting`: in flush_for_ordering, for the acknowledgement.
inductive StreamReader
  | Reading
  | Ingesting (ingest : Ingest)
  | Awaiting (executionId : ExecutionId)
deriving DecidableEq

def StreamReader.ingest : StreamReader → Option Ingest
  | .Ingesting ingest => some ingest
  | _ => none

-- `closed`: the executions whose last flushes are requested, `flushed`: those whose
-- flush_for_ordering has returned.
structure Streams (Terminal Data : Type) where
  reader : StreamReader
  pipeline : StreamPipeline Terminal Data
  read : List StreamChunk
  closed : List ExecutionId
  flushed : List ExecutionId

-- `keys` is the order in which flush_execution goes through the flush buffer.
inductive StreamEvent
  | Chunk (chunk : StreamChunk) (now : Nat)
  | Ingest (dropped : Bool)
  | FlushThenSignal (executionId : ExecutionId) (keys : List SegmentKey) (now : Nat)
  | FlushForOrdering (executionId : ExecutionId) (keys : List SegmentKey) (now : Nat)
  | Acknowledged
  | Commit
deriving DecidableEq

namespace Streams

def new : Streams Terminal Data := ⟨.Reading, .new, [], [], []⟩

def step (emulator : Emulator Terminal) (state : Streams Terminal Data) :
    StreamEvent → Option (Streams Terminal Data)
  | .Chunk chunk now =>
    if state.reader = .Reading ∧ chunk.executionId ∉ state.closed then
      let fed := state.pipeline.feedChunk emulator chunk.executionId chunk.streamName chunk.text now
      some { state with reader := .Ingesting fed.2, pipeline := fed.1, read := state.read ++ [chunk] }
    else
      none
  | .Ingest dropped =>
    match state.reader with
    | .Ingesting ingest =>
      let ingested := state.pipeline.ingestStep ingest dropped
      some { state with
        reader := (ingested.2.map .Ingesting).getD .Reading
        pipeline := ingested.1 }
    | _ => none
  | .FlushThenSignal executionId keys now =>
    if state.reader = .Reading ∧ executionId ∉ state.closed ∧
        state.pipeline.flushes.IsFlushOrder executionId keys then
      let taken := state.pipeline.takeExecution executionId keys now
      some { state with
        pipeline := taken.1.flushThenSignal taken.2 (.ExecutionDone executionId)
        closed := state.closed ++ [executionId] }
    else
      none
  | .FlushForOrdering executionId keys now =>
    if state.reader = .Reading ∧ executionId ∉ state.closed ∧
        state.pipeline.flushes.IsFlushOrder executionId keys then
      let taken := state.pipeline.takeExecution executionId keys now
      some { state with
        reader := .Awaiting executionId
        pipeline := taken.1.flushForOrdering executionId taken.2
        closed := state.closed ++ [executionId] }
    else
      none
  | .Acknowledged =>
    match state.reader with
    | .Awaiting executionId =>
      if state.pipeline.acked = some executionId then
        some { state with
          reader := .Reading
          pipeline := { state.pipeline with acked := none }
          flushed := state.flushed ++ [executionId] }
      else
        none
    | _ => none
  | .Commit => (state.pipeline.commitStep emulator).map fun after => { state with pipeline := after }

def Processed (executionId : ExecutionId) (state : Streams Terminal Data) : Prop :=
  LifecycleSignal.ExecutionDone executionId ∈ state.pipeline.signals ∨
    state.pipeline.acked = some executionId ∨ executionId ∈ state.flushed

end Streams

-- The maximal runs of the execution's chunks on one stream, in order of arrival.
def streamRuns (executionId : ExecutionId) (read : List StreamChunk) : List (Arrival Data) :=
  read.foldl (fun runs chunk =>
    if chunk.executionId = executionId then extendRun runs chunk.streamName chunk.text
    else runs) []

theorem streamRuns_concat (executionId : ExecutionId) (read : List StreamChunk)
    (chunk : StreamChunk) :
    (streamRuns executionId (read ++ [chunk]) : List (Arrival Data)) =
      if chunk.executionId = executionId then
        extendRun (streamRuns executionId read) chunk.streamName chunk.text
      else
        streamRuns executionId read := by
  simp [streamRuns]

variable {emulator : Emulator Terminal} {executionId : ExecutionId}
  {pipeline after : StreamPipeline Terminal Data} {ingest : Option Ingest} {lane next : Lane Data}
  {state : Streams Terminal Data}

-- No boundary is on the way. Every flush asked for is of a started segment, not of the one just
-- opened, and every started segment is in the buffer.
structure Open (executionId : ExecutionId) (pipeline : StreamPipeline Terminal Data)
    (ingest : Option Ingest) : Prop where
  unended : none ∉ agenda executionId pipeline (ingest.bind Ingest.owed)
  asked : ∀ key, key.executionId = executionId →
    some key ∈ agenda executionId pipeline (ingest.bind Ingest.owed) ∨ key ∈ pipeline.periodic →
    pipeline.terminals.Started key ∧
      ∀ current, ingest = some current → current.owed ≠ none → key ≠ current.key
  held : ∀ key, key.executionId = executionId → pipeline.terminals.Started key →
    pipeline.flushes.Holds key ∨ ingest.map Ingest.key = some key

-- The last segment will be rendered before the boundary's request ends, or has been.
def Closing (emulator : Emulator Terminal) (executionId : ExecutionId)
    (pipeline : StreamPipeline Terminal Data) (lane : Lane Data) : Prop :=
  Steady emulator executionId lane pipeline.stage ∨
    ∃ segment, lane.live.getLast? = some segment ∧
      (Before (queue executionId pipeline) (some segment.key) none ∨
        pipeline.stage.flying = some (segment.key, emulator.rendered segment.chunks))

structure Standing (emulator : Emulator Terminal) (executionId : ExecutionId)
    (state : Streams Terminal Data) (lane : Lane Data) : Prop where
  follows : Follows emulator executionId state.pipeline lane
  caught : Caught emulator executionId state.pipeline
  arrivals : lane.arrivals = streamRuns executionId state.read
  order : InOrder (agenda executionId state.pipeline (state.reader.ingest.bind Ingest.owed))
    (lane.keys.map some)
  opened : executionId ∉ state.closed → Open executionId state.pipeline state.reader.ingest
  closing : executionId ∈ state.closed → Closing emulator executionId state.pipeline lane
  steady : state.Processed executionId →
    executionId ∈ state.closed ∧ Steady emulator executionId lane state.pipeline.stage
  ingesting : ∀ current, state.reader.ingest = some current →
    current.executionId = executionId →
    executionId ∉ state.closed ∧ lane.keys.getLast? = some current.key

structure CommitFrame (executionId : ExecutionId) (pipeline after : StreamPipeline Terminal Data)
    (owed : Option SegmentKey) : Prop where
  flushes : after.flushes = pipeline.flushes
  segments : after.terminals.currentSegments = pipeline.terminals.currentSegments
  agenda : ∀ mark ∈ agenda executionId after owed,
    mark ∈ agenda executionId pipeline owed ∨ ∃ flush ∈ pipeline.periodic, mark = some flush
  periodic : after.periodic ⊆ pipeline.periodic

theorem queue_serving (hs : pipeline.stage = .Serving request) :
    queue executionId pipeline = request.marks executionId ++
      pipeline.priority.flatMap (·.marks executionId) := by
  simp [queue, hs, CommitStage.request]

theorem agenda_serving (hs : pipeline.stage = .Serving request) :
    agenda executionId pipeline owed = request.marks executionId ++
      (pipeline.priority.flatMap (·.marks executionId) ++ (owed.map some).toList) := by
  simp [agenda, queue_serving hs, hs, CommitStage.flying]

theorem retireSegment_currentSegments (terminals : StreamTerminals Terminal) (key : SegmentKey) :
    (terminals.retireSegment key).currentSegments = terminals.currentSegments := by
  unfold StreamTerminals.retireSegment
  split <;> rfl

theorem commitStep_frame (owed : Option SegmentKey)
    (hs : pipeline.commitStep emulator = some after) :
    CommitFrame executionId pipeline after owed := by
  unfold StreamPipeline.commitStep at hs
  obtain ⟨terminals, _, priority, periodic, stage, _, _, _⟩ := pipeline
  cases stage with
  | Idle =>
    cases priority with
    | cons =>
      obtain rfl := some.inj hs
      exact ⟨rfl, rfl, fun _ => .inl, fun _ => id⟩
    | nil =>
      cases periodic with
      | nil => cases hs
      | cons flush periodic =>
        obtain rfl := some.inj hs
        refine ⟨rfl, rfl, fun mark hm => ?_, subset_cons_self _ _⟩
        rcases mem_cons.mp hm with rfl | hm
        · exact .inr ⟨flush, (.head _), rfl⟩
        · exact .inl hm
  | Serving request =>
    obtain ⟨all, _, _⟩ := request
    cases all with
    | nil =>
      obtain rfl := some.inj hs
      refine ⟨rfl, rfl, fun mark hm => .inl ?_, fun _ => id⟩
      rw [agenda_serving rfl]
      exact mem_append_right _ hm
    | cons flush rest =>
      obtain rfl := some.inj hs
      simp only [StreamPipeline.render]
      cases terminals.renderSegment emulator flush with
      | none => exact ⟨rfl, rfl, fun _ => .inl ∘ mem_cons_of_mem _, fun _ => id⟩
      | some => exact ⟨rfl, rfl, fun _ => .inl, fun _ => id⟩
  | Rendered | Published =>
    obtain rfl := some.inj hs
    exact ⟨rfl, rfl, fun _ => .inl, fun _ => id⟩
  | Upserted =>
    obtain rfl := some.inj hs
    exact ⟨rfl, retireSegment_currentSegments _ _, fun _ => .inl ∘ mem_cons_of_mem _, fun _ => id⟩

theorem Open.commit (ho : Open executionId pipeline ingest)
    (hf : CommitFrame executionId pipeline after (ingest.bind Ingest.owed)) :
    Open executionId after ingest := by
  have hs : ∀ key, after.terminals.Started key ↔ pipeline.terminals.Started key := by
    intro key
    unfold StreamTerminals.Started
    rw [hf.segments]
  refine ⟨fun hm => ?_, fun key he hk => ?_, fun key he hk => ?_⟩
  · obtain hm | ⟨flush, -, hm⟩ := hf.agenda none hm
    · exact ho.unended hm
    · cases hm
  · rw [hs]
    refine ho.asked key he ?_
    rcases hk with hm | hm
    · obtain hm | ⟨flush, hp, hm⟩ := hf.agenda _ hm
      · exact .inl hm
      · exact .inr (some.inj hm ▸ hp)
    · exact .inr (hf.periodic hm)
  · rw [hf.flushes]
    exact ho.held key he ((hs key).mp hk)

theorem Ingest.owed_executionId {ingest : Ingest} {key : SegmentKey}
    (ho : ingest.owed = some key) : key.executionId = ingest.executionId := by
  unfold Ingest.owed at ho
  split at ho
  · obtain ⟨_, -, rfl⟩ := map_eq_some_iff.mp ho
    rfl
  · cases ho

theorem Steady.stage {stage following : CommitStage} (hs : Steady emulator executionId lane stage)
    (hf : ∀ flush text, following.flying = some (flush, text) → flush.executionId = executionId →
      stage.flying = some (flush, text)) : Steady emulator executionId lane following := by
  obtain hl | ⟨segment, shown, hl, hshown, ht, hflying⟩ := hs
  · exact .inl hl
  · exact .inr ⟨segment, shown, hl, hshown, ht,
      fun flush text hn he => hflying flush text (hf flush text hn he) he⟩

namespace Standing

variable {ack : Option ExecutionId} (hstands : Standing emulator executionId state lane)

include hstands

-- All that can stand before a segment is one that the reader is about to flush.
theorem order_periodic
    (ha : agenda executionId state.pipeline (state.reader.ingest.bind Ingest.owed) =
      ((state.reader.ingest.bind Ingest.owed).map some).toList)
    (hm : flush ∈ state.pipeline.periodic) :
    InOrder (some flush :: agenda executionId state.pipeline
      (state.reader.ingest.bind Ingest.owed)) (lane.keys.map some) := by
  have hh := hstands.follows.hosts
  refine hstands.order.push fun htail => ?_
  obtain ⟨first, keys, hk⟩ : ∃ first keys, lane.keys = first :: keys := by
    cases hk : lane.keys with
    | nil => simp [hk] at htail
    | cons first keys => exact ⟨first, keys, rfl⟩
  have hlater : flush ∈ keys := by simpa [hk] using htail
  have hnodup := hh.nodup
  rw [hk, nodup_cons] at hnodup
  have hmem : ∀ key ∈ lane.keys, state.reader.ingest.bind Ingest.owed = some key ∨
      lane.keys.getLast? = some key := by
    intro key hm
    refine (hstands.order.mem_or_last (mem_map_of_mem hm)).imp (fun h => ?_) fun h => ?_
    · rw [ha] at h
      obtain ⟨_, ho, he⟩ := map_eq_some_iff.mp (mem_toList.mp h)
      exact ho.trans he
    · simpa using h
  have hfirst : state.reader.ingest.bind Ingest.owed = some first := by
    refine (hmem first (by simp [hk])).resolve_right fun hl => hnodup.1 ?_
    cases keys with
    | nil => cases hlater
    | cons =>
      rw [hk, List.getLast?_cons_cons] at hl
      exact mem_of_getLast? hl
  obtain ⟨current, hi, howed⟩ := bind_eq_some_iff.mp hfirst
  have hown : current.executionId = executionId := by
    rw [← Ingest.owed_executionId howed]
    exact hh.own first (by simp [hk])
  obtain ⟨hopen, hlast⟩ := hstands.ingesting current hi hown
  have hflush : flush ∈ lane.keys := by simp [hk, hlater]
  have hne := ((hstands.opened hopen).asked flush (hh.own flush hflush) (.inr hm)).2 current hi
    (by simp [howed])
  rcases hmem flush hflush with hf | hf
  · obtain rfl := some.inj (hfirst.symm.trans hf)
    exact hnodup.1 hlater
  · exact hne (some.inj (hf.symm.trans hlast))

variable (hs : state.pipeline.commitStep emulator = some after)
  (hc : Caught emulator executionId after)

include hs hc

theorem commits (hf : Follows emulator executionId after next) (ha : next.arrivals = lane.arrivals)
    (hl : next.keys.getLast? = lane.keys.getLast?)
    (ho : InOrder (agenda executionId after (state.reader.ingest.bind Ingest.owed))
      (next.keys.map some))
    (hclosing : Closing emulator executionId state.pipeline lane →
      Closing emulator executionId after next)
    (hsteady : Steady emulator executionId lane state.pipeline.stage →
      Steady emulator executionId next after.stage)
    (hp : ({ state with pipeline := after } : Streams Terminal Data).Processed executionId →
      state.Processed executionId ∨
        executionId ∈ state.closed ∧ Steady emulator executionId next after.stage) :
    ∃ next, Standing emulator executionId { state with pipeline := after } next := by
  refine ⟨next, hf, hc, ha.trans hstands.arrivals, ho,
    fun hopen => (hstands.opened hopen).commit (commitStep_frame _ hs),
    fun hclosed => hclosing (hstands.closing hclosed), fun hprocessed => ?_,
    fun current hi hown => ?_⟩
  · rcases hp hprocessed with hprocessed | hp
    · exact (hstands.steady hprocessed).imp_right hsteady
    · exact hp
  · rw [hl]
    exact hstands.ingesting current hi hown

theorem render (hstage : state.pipeline.stage = .Serving ⟨flush :: flushes, signal, ack⟩)
    (hr : after = state.pipeline.render emulator ⟨flushes, signal, ack⟩ flush) :
    ∃ next, Standing emulator executionId { state with pipeline := after } next := by
  obtain ⟨_, ⟨terminals, _, _, _, stage, _, _, _⟩, _, _, _⟩ := state
  obtain rfl : stage = _ := hstage
  have hf := hstands.follows
  have hh := hf.hosts
  have ho := hstands.order
  unfold StreamPipeline.render at hr
  dsimp only at hr hh
  have hwhole : ∀ segment ∈ lane.live, flush = segment.key →
      terminals.renderSegment emulator flush = some (emulator.rendered segment.chunks) := by
    rintro segment hm rfl
    exact hh.rendered hm
  cases hrender : terminals.renderSegment emulator flush with
  | none =>
    rw [hrender] at hr
    subst hr
    have hout : flush ∉ lane.keys := by
      intro hm
      obtain ⟨segment, hm, he⟩ := mem_map.mp hm
      simp [hwhole segment hm he.symm] at hrender
    refine hstands.commits hs hc ⟨hh, hf.noted, hf.outputs, hf.unshown, trivial⟩ rfl rfl
      (ho.drop (by simpa using hout)) ?_ id .inl
    rintro (hsteady | ⟨segment, hlast, hb | hfly⟩)
    · exact .inl hsteady
    · refine .inr ⟨segment, hlast, .inl (hb.of_cons.resolve_left fun he => hout ?_).2⟩
      obtain rfl := some.inj he
      exact mem_map_of_mem (mem_of_getLast? hlast)
    · cases hfly
  | some text =>
    rw [hrender] at hr
    subst hr
    have hm : flush.executionId = executionId → flush ∈ lane.keys := by
      intro he
      by_contra hout
      simp [StreamTerminals.renderSegment, hh.absent flush he hout] at hrender
    have hfirst : flush.executionId = executionId → lane.keys.head? = some flush := by
      intro he
      have hhead := InOrder.head ho (hh.nodup.map (some_injective _)) (mem_map_of_mem (hm he))
      simpa using hhead
    have hsteady : Steady emulator executionId lane (.Serving ⟨flush :: flushes, signal, ack⟩) →
        Steady emulator executionId lane
          (.Rendered ⟨flushes, signal, ack⟩ flush (terminals.outputStates flush) text) := by
      rintro (hl | ⟨segment, shown, hl, hshown, ht, -⟩)
      · exact .inl hl
      · refine .inr ⟨segment, shown, hl, hshown, ht, ?_⟩
        intro other rendered hfly he
        obtain ⟨rfl, rfl⟩ := Prod.mk.inj (some.inj hfly)
        have hk : segment.key = flush := by simpa [Lane.keys, hl] using hfirst he
        exact some.inj (hrender.symm.trans (hwhole segment (by simp [hl]) hk.symm))
    refine hstands.commits hs hc ⟨hh, hf.noted, hf.outputs, hf.unshown, rfl, hfirst⟩ rfl rfl
      ho ?_ hsteady .inl
    · rintro (hl | ⟨segment, hlast, hb | hfly⟩)
      · exact .inl (hsteady hl)
      · refine .inr ⟨segment, hlast, hb.of_cons.symm.imp And.right fun he => ?_⟩
        obtain rfl := some.inj he
        have ht := hwhole segment (mem_of_getLast? hlast) rfl
        rw [some.inj (hrender.symm.trans ht)]
        rfl
      · cases hfly

theorem finish (hstage : state.pipeline.stage = .Serving ⟨[], signal, ack⟩)
    (hr : after = state.pipeline.finish ⟨[], signal, ack⟩) :
    ∃ next, Standing emulator executionId { state with pipeline := after } next := by
  obtain ⟨_, ⟨terminals, buffer, priority, periodic, stage, acked, doc, signals⟩, _,
    closed, _⟩ := state
  obtain rfl : stage = _ := hstage
  subst hr
  have hf := hstands.follows
  have ho := hstands.order
  rw [agenda_serving rfl] at ho
  by_cases he : (⟨[], signal, ack⟩ : PriorityStreamCommit).Ends executionId
  · have hmarks : (⟨[], signal, ack⟩ : PriorityStreamCommit).marks executionId = [none] := by
      simp [PriorityStreamCommit.marks, he]
    rw [hmarks] at ho
    have hclosed : executionId ∈ closed := by
      by_contra hopen
      refine (hstands.opened hopen).unended ?_
      rw [agenda_serving rfl, hmarks]
      exact (.head _)
    have hsteady : Closing emulator executionId
        ⟨terminals, buffer, priority, periodic, .Serving ⟨[], signal, ack⟩, acked, doc, signals⟩
        lane → Steady emulator executionId lane .Idle := by
      rintro (hsteady | ⟨segment, -, hb | hfly⟩)
      · exact hsteady
      · rw [queue_serving rfl, hmarks] at hb
        rcases hb.of_cons with hk | hb
        · cases hk
        · exact absurd rfl hb.1
      · cases hfly
    exact hstands.commits hs hc ⟨hf.hosts, hf.noted, hf.outputs, hf.unshown, trivial⟩ rfl rfl
      (ho.drop (by simp)) (.inl ∘ hsteady) id
      fun _ => .inr ⟨hclosed, hsteady (hstands.closing hclosed)⟩
  · have hmarks : (⟨[], signal, ack⟩ : PriorityStreamCommit).marks executionId = [] := by
      simp [PriorityStreamCommit.marks, he]
    rw [hmarks] at ho
    refine hstands.commits hs hc ⟨hf.hosts, hf.noted, hf.outputs, hf.unshown, trivial⟩ rfl rfl
      ho ?_ id ?_
    · rintro (hsteady | ⟨segment, hlast, hb | hfly⟩)
      · exact .inl hsteady
      · rw [queue_serving rfl, hmarks] at hb
        exact .inr ⟨segment, hlast, .inl hb⟩
      · cases hfly
    · rintro (hdone | hacked | hflushed)
      · refine .inl (.inl ((mem_append.mp hdone).resolve_right fun h => he (.inl ?_)))
        exact mem_toList.mp h
      · cases ack with
        | none => exact .inl (.inr (.inl hacked))
        | some => exact absurd (.inr hacked) he
      · exact .inl (.inr (.inr hflushed))

theorem upsert (hstage : state.pipeline.stage = .Published request flush knownState text)
    (hr : after = state.pipeline.upsert emulator request flush knownState text) :
    ∃ next, Standing emulator executionId { state with pipeline := after } next := by
  obtain ⟨_, ⟨_, _, _, _, stage, _, _, _⟩, _, _, _⟩ := state
  obtain rfl : stage = _ := hstage
  subst hr
  have hf := hstands.follows
  by_cases he : flush.executionId = executionId
  · obtain ⟨shown, ht, hnext⟩ := hf.upsert rfl he
    have hsteady : Steady emulator executionId lane (.Published request flush knownState text) →
        Steady emulator executionId { lane with shown := some shown }
          (.Published request flush knownState text) := by
      rintro (hl | ⟨segment, _, hl, -, -, hfly⟩)
      · exact .inl hl
      · exact .inr ⟨segment, shown, hl, rfl,
          ht.trans (congrArg emulator.redact (hfly flush text rfl he)), hfly⟩
    exact hstands.commits hs hc hnext rfl rfl hstands.order (.imp_left hsteady) hsteady .inl
  · refine hstands.commits hs hc ⟨hf.hosts, fun key hown => ?_, ?_, hf.unshown,
      fun hown => absurd hown he⟩ rfl rfl hstands.order id id .inl
    · have hne : flush ≠ key := by
        rintro rfl
        exact he hown
      exact (if_neg hne).trans (hf.noted key hown)
    · obtain ⟨committed, ho, hshows⟩ := hf.outputs
      exact ⟨committed, (OutputMap.upsertStreamOutput_other he _ _).trans ho, hshows⟩

theorem record (hstage : state.pipeline.stage = .Upserted request flush outputId text)
    (hr : after = state.pipeline.record emulator request flush outputId text) :
    ∃ next, Standing emulator executionId { state with pipeline := after } next := by
  obtain ⟨_, ⟨terminals, _, _, _, stage, _, _, _⟩, _, _, _⟩ := state
  obtain rfl : stage = _ := hstage
  subst hr
  have hf := hstands.follows
  have ho := hstands.order
  have hidle : Steady emulator executionId lane (.Upserted request flush outputId text) →
      Steady emulator executionId lane (.Serving request) :=
    fun hsteady => hsteady.stage fun _ _ h => by cases h
  by_cases he : flush.executionId = executionId
  · obtain ⟨hfirst, shown, hshown, -, ht⟩ := hf.carries he
    match hl : lane.live with
    | [] => simp [Lane.keys, hl] at hfirst
    | [segment] =>
      refine hstands.commits hs hc (hf.record_open rfl he hl) rfl rfl ?_ ?_ hidle .inl
      · simp [Lane.keys, hl, InOrder]
      · rintro (hsteady | ⟨other, hlast, hb | hfly⟩)
        · exact .inl (hidle hsteady)
        · exact .inr ⟨other, hlast, .inl hb⟩
        · obtain rfl : segment = other := by simpa [hl] using hlast
          refine .inl (.inr ⟨segment, shown, hl, hshown, ?_, fun _ _ h => by cases h⟩)
          rw [ht]
          exact congrArg emulator.redact (Prod.mk.inj (some.inj hfly)).2
    | segment :: second :: rest =>
      obtain rfl : segment.key = flush := by simpa [Lane.keys, hl] using hfirst
      have hkeys : lane.keys = segment.key :: (second :: rest).map (·.key) := by
        simp [Lane.keys, hl]
      have hnodup := hf.hosts.nodup
      rw [hkeys, nodup_cons] at hnodup
      have hin : segment.key ∈ terminals.sealedSegments := by
        rw [hf.hosts.sealed segment.key he, hkeys]
        simp
      have hmany : ¬Steady emulator executionId lane
          (.Upserted request segment.key outputId text) := by
        simp [Steady, hl]
      have hwhole : text = emulator.rendered segment.chunks := by
        have hr := hstands.caught segment.key text rfl he hin
        exact some.inj (hr.symm.trans (hf.hosts.rendered (by simp [hl])))
      rw [hkeys] at ho
      refine hstands.commits hs hc (hf.record_sealed rfl he hl hwhole) ?_ ?_
        (InOrder.drop ho.tail ?_) ?_ ?_ .inl
      · simp [Lane.arrivals, hl]
      · simp [Lane.keys, hl]
      · exact fun hm => hnodup.1 (by simpa [Lane.keys] using hm)
      · rintro (hsteady | ⟨other, hlast, hb | hfly⟩)
        · exact absurd hsteady hmany
        · exact .inr ⟨other, by simpa [hl] using hlast, .inl hb⟩
        · refine absurd ?_ hnodup.1
          rw [(Prod.mk.inj (some.inj hfly)).1]
          rw [hl, List.getLast?_cons_cons] at hlast
          exact mem_map_of_mem (mem_of_getLast? hlast)
      · exact fun hsteady => absurd hsteady hmany
  · have ha := record_agrees terminals
      ⟨outputId, emulator.contentRef (emulator.redact text)⟩ he
    have hout : flush ∉ lane.keys := fun hm => he (hf.hosts.own flush hm)
    refine hstands.commits hs hc (hf.frame ha rfl (fun key hown => ?_) trivial) rfl rfl
      (InOrder.drop ho (by simpa using hout)) ?_ hidle .inl
    · have hne : flush ≠ key := by
        rintro rfl
        exact he hown
      exact (ha.outputStates key hown).trans (if_neg hne).symm
    · rintro (hsteady | ⟨other, hlast, hb | hfly⟩)
      · exact .inl (hidle hsteady)
      · exact .inr ⟨other, hlast, .inl hb⟩
      · refine absurd ?_ hout
        rw [(Prod.mk.inj (some.inj hfly)).1]
        exact mem_map_of_mem (mem_of_getLast? hlast)

theorem commit : ∃ next, Standing emulator executionId { state with pipeline := after } next := by
  obtain ⟨_, ⟨_, _, priority, periodic, stage, _, _, _⟩, _, _, _⟩ := state
  have hf := hstands.follows
  have ho := hstands.order
  have hstep := hs
  cases stage with
  | Idle =>
    cases priority with
    | cons =>
      obtain rfl := some.inj hs
      exact hstands.commits hstep hc ⟨hf.hosts, hf.noted, hf.outputs, hf.unshown, trivial⟩ rfl rfl
        ho id id .inl
    | nil =>
      cases periodic with
      | nil => cases hs
      | cons flush periodic =>
        obtain rfl := some.inj hs
        refine hstands.commits hstep hc ⟨hf.hosts, hf.noted, hf.outputs, hf.unshown, trivial⟩ rfl rfl
          (hstands.order_periodic rfl (.head _)) ?_ id .inl
        rintro (hsteady | ⟨_, -, ⟨_, rest, hb, -⟩ | hfly⟩)
        · exact .inl hsteady
        · simp [queue, CommitStage.request] at hb
        · cases hfly
  | Serving request =>
    obtain ⟨all, _, _⟩ := request
    cases all with
    | nil => exact hstands.finish hs hc rfl (some.inj hs).symm
    | cons flush rest => exact hstands.render hs hc rfl (some.inj hs).symm
  | Rendered request flush knownState text =>
    obtain rfl := some.inj hs
    exact hstands.commits hstep hc ⟨hf.hosts, hf.noted, hf.outputs, hf.unshown, hf.carries⟩ rfl rfl
      ho id id .inl
  | Published => exact hstands.upsert hs hc rfl (some.inj hs).symm
  | Upserted => exact hstands.record hs hc rfl (some.inj hs).symm

end Standing

end Nteract.Outputs
