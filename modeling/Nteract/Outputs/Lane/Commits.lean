import Nteract.Outputs.Lane

namespace Nteract.Outputs

open RuntimeDoc Lib.Agenda List Function

variable {Terminal Data : Type} {emulator : Emulator Terminal} {executionId : ExecutionId}
  {segment : Segment}
  {pipeline after : StreamPipeline Terminal Data} {lane : Lane Data}

structure StreamTerminals.Agrees (executionId : ExecutionId)
    (before after : StreamTerminals Terminal) : Prop where
  terminals : ∀ key, key.executionId = executionId → after.terminals key = before.terminals key
  outputStates : ∀ key, key.executionId = executionId →
    after.outputStates key = before.outputStates key
  currentSegments : ∀ streamName, after.currentSegments executionId streamName =
    before.currentSegments executionId streamName
  lastStream : after.lastStream executionId = before.lastStream executionId
  sealedSegments : ∀ key, key.executionId = executionId →
    (key ∈ after.sealedSegments ↔ key ∈ before.sealedSegments)

theorem StreamTerminals.Agrees.started {before after : StreamTerminals Terminal}
    (ha : before.Agrees executionId after) (hk : key.executionId = executionId) :
    after.Started key ↔ before.Started key := by
  subst hk
  unfold StreamTerminals.Started
  rw [ha.currentSegments]

theorem Hosts.agrees (hh : Hosts emulator executionId terminals lane)
    (ha : terminals.Agrees executionId grown) : Hosts emulator executionId grown lane where
  nodup := hh.nodup
  own := hh.own
  terminal segment hm := by
    rw [ha.terminals _ (hh.own _ (mem_map_of_mem hm))]
    exact hh.terminal segment hm
  absent key hk hn := by
    rw [ha.terminals key hk]
    exact hh.absent key hk hn
  last := by rw [ha.lastStream, hh.last]
  current key hk := by rw [ha.currentSegments, hh.current key hk]
  started key hk := (ha.started (hh.own key hk)).mpr (hh.started key hk)
  sealed key hk := by rw [ha.sealedSegments key hk, hh.sealed key hk]

theorem record_agrees (terminals : StreamTerminals Terminal) (state : StreamOutputState)
    (hk : key.executionId ≠ executionId) :
    terminals.Agrees executionId ((terminals.setSegmentOutputState key state).retireSegment key) := by
  have hne : ∀ other : SegmentKey, other.executionId = executionId → other ≠ key := by
    rintro other ho rfl
    exact hk ho
  unfold StreamTerminals.retireSegment StreamTerminals.setSegmentOutputState
  split
  · refine ⟨?_, ?_, fun _ => rfl, rfl, ?_⟩
    all_goals
      intro other ho
      simp [hne other ho]
  · refine ⟨fun _ _ => rfl, ?_, fun _ => rfl, rfl, fun _ _ => Iff.rfl⟩
    intro other ho
    simp [hne other ho]

theorem Hosts.rendered (hh : Hosts emulator executionId terminals lane) (hm : segment ∈ lane.live) :
    terminals.renderSegment emulator segment.key = some (emulator.rendered segment.chunks) := by
  rw [StreamTerminals.renderSegment, hh.terminal segment hm]
  rfl

theorem Hosts.retire (hh : Hosts emulator executionId terminals lane)
    (hl : lane.live = segment :: second :: rest) (states : SegmentKey → Option StreamOutputState) :
    Hosts emulator executionId { terminals with
        terminals := update terminals.terminals segment.key none
        outputStates := states
        sealedSegments := terminals.sealedSegments.erase segment.key }
      (⟨done, second :: rest, shown⟩ : Lane Data) := by
  have hkeys : lane.keys = segment.key :: (second :: rest).map (·.key) := by simp [Lane.keys, hl]
  have hnodup := hh.nodup
  rw [hkeys, nodup_cons] at hnodup
  have hsub : ∀ key ∈ (second :: rest).map (·.key), key ∈ lane.keys := by
    rw [hkeys]
    exact fun _ => mem_cons_of_mem _
  refine ⟨hnodup.2, fun key hm => hh.own key (hsub key hm), ?_, ?_, ?_, ?_,
    fun key hm => hh.started key (hsub key hm), ?_⟩
  · intro other hm
    have hne : other.key ≠ segment.key :=
      fun hk => hnodup.1 (hk ▸ mem_map_of_mem hm)
    simpa [hne] using hh.terminal other (by rw [hl]; exact .tail _ hm)
  · intro key hk hn
    by_cases hkey : key = segment.key
    · simp [hkey]
    · have ho : key ∉ lane.keys := by
        rw [hkeys, mem_cons]
        exact fun h => h.elim hkey hn
      simpa [hkey] using hh.absent key hk ho
  · have hlast := hh.last
    rw [hkeys] at hlast
    simpa [Lane.keys] using hlast
  · exact fun key hk => hh.current key (by rw [hkeys]; simpa [Lane.keys] using hk)
  · intro key hk
    have hd : segment.key ∉ ((second :: rest).map (·.key)).dropLast :=
      fun h => hnodup.1 (dropLast_subset _ h)
    rw [Finset.mem_erase, hh.sealed key hk, hkeys]
    simp only [map_cons, dropLast_cons_cons, Lane.keys, mem_cons] at hd ⊢
    constructor
    · exact fun h => h.2.resolve_left h.1
    · exact fun h => ⟨fun heq => hd (heq ▸ h), .inr h⟩

namespace Follows

variable (hf : Follows emulator executionId pipeline lane)

include hf

theorem frame (ha : pipeline.terminals.Agrees executionId after.terminals)
    (ho : after.doc.outputsOf executionId = pipeline.doc.outputsOf executionId)
    (hn : ∀ key, key.executionId = executionId →
      after.noted emulator key = pipeline.noted emulator key)
    (hc : Carries emulator executionId after.terminals lane after.stage) :
    Follows emulator executionId after lane where
  hosts := hf.hosts.agrees ha
  noted key hk := (hn key hk).trans (hf.noted key hk)
  outputs := by
    rw [ho]
    exact hf.outputs
  unshown := hf.unshown
  carries := hc

theorem upsert_shown (hown : flush.executionId = executionId)
    (hfirst : lane.keys.head? = some flush) :
    ∃ committed shown, (pipeline.doc.upsertStreamOutput emulator.contentRef flush.executionId
          (.Stream flush.streamName text) (lane.knownState emulator)).1.outputsOf executionId =
        committed ++ ({ lane with shown := some shown } : Lane Data).shownEntries executionId ∧
      (pipeline.doc.upsertStreamOutput emulator.contentRef flush.executionId
          (.Stream flush.streamName text) (lane.knownState emulator)).2.2 = shown.outputId ∧
      shown.text = text ∧
      Forall₂ (Shows emulator fun _ _ => False) lane.done (committed.map (·.manifest)) := by
  subst hown
  obtain ⟨committed, hout, hshows⟩ := hf.outputs
  obtain ⟨segment, rest, hlive⟩ : ∃ segment rest, lane.live = segment :: rest := by
    cases hl : lane.live with
    | nil => simp [Lane.keys, hl] at hfirst
    | cons segment rest => exact ⟨segment, rest, rfl⟩
  have hk : segment.key = flush := by simpa [Lane.keys, hlive] using hfirst
  refine ⟨committed, ?_⟩
  cases hs : lane.shown with
  | none =>
    refine ⟨⟨pipeline.doc.minted, pipeline.doc.nextOutputSeq flush.executionId, text⟩, ?_, ?_,
      rfl, hshows⟩
    · simp [Lane.knownState, hs, OutputMap.upsertStreamOutput,
        OutputMap.outputsOf_appendOutput, hout, Lane.shownEntries, hlive, hk]
    · simp [Lane.knownState, hs, OutputMap.upsertStreamOutput]
  | some shown =>
    have hlast : pipeline.doc.outputsOf flush.executionId = committed ++
        [⟨flush.executionId, shown.outputId, shown.seq, .Stream flush.streamName shown.text⟩] := by
      simpa [Lane.shownEntries, hlive, hs, hk] using hout
    obtain ⟨ho, hid⟩ := OutputMap.upsertStreamOutput_last emulator.contentRef
      ⟨shown.outputId, emulator.contentRef shown.text⟩ (.Stream flush.streamName text) hlast
      rfl rfl
    refine ⟨{ shown with text := text }, ?_, ?_, rfl, hshows⟩
    · simpa [Lane.knownState, hs, Lane.shownEntries, hlive, hk] using ho
    · simpa [Lane.knownState, hs] using hid

theorem upsert (hs : pipeline.stage = .Published request flush knownState text)
    (he : flush.executionId = executionId) :
    ∃ shown, shown.text = emulator.redact text ∧ Follows emulator executionId
      (pipeline.upsert emulator request flush knownState text) { lane with shown := some shown } := by
  have hc := hf.carries
  have hn := hf.noted
  simp only [StreamPipeline.noted, hs] at hc hn
  obtain ⟨rfl, hfirst⟩ := hc
  have hfirst := hfirst he
  have hk := hn flush he
  rw [if_pos hfirst] at hk
  rw [hk]
  obtain ⟨committed, shown, ho, hid, ht, hshows⟩ := hf.upsert_shown he hfirst
  have hl : lane.live ≠ [] := by
    intro hl
    simp [Lane.keys, hl] at hfirst
  refine ⟨shown, ht, { hf.hosts with }, fun key hown => ?_, ⟨committed, ho, hshows⟩, fun h => absurd h hl,
    fun _ => ⟨hfirst, shown, rfl, hid.symm, ht⟩⟩
  by_cases heq : flush = key
  · subst heq
    have hfirst : ({ lane with shown := some shown } : Lane Data).keys.head? = some flush := hfirst
    simp only [StreamPipeline.noted, StreamPipeline.upsert, if_true, hfirst, hid]
    simp [Lane.knownState, ht]
  · have hfirst : ({ lane with shown := some shown } : Lane Data).keys.head? ≠ some key := by
      intro h
      exact heq (Option.some.inj (hfirst.symm.trans h))
    have hkey := hn key hown
    rw [if_neg (by exact hfirst)] at hkey
    simpa only [StreamPipeline.noted, StreamPipeline.upsert, heq, if_false, hfirst] using hkey

theorem record_open (hs : pipeline.stage = .Upserted request flush outputId text)
    (he : flush.executionId = executionId) (hl : lane.live = [segment]) :
    Follows emulator executionId (pipeline.record emulator request flush outputId text) lane := by
  have hn := hf.noted
  simp only [StreamPipeline.noted, hs] at hn
  have ho : flush ∉ pipeline.terminals.sealedSegments := by
    rw [hf.hosts.sealed flush he]
    simp [Lane.keys, hl]
  have hr : pipeline.record emulator request flush outputId text = { pipeline with
      terminals := pipeline.terminals.setSegmentOutputState flush
        ⟨outputId, emulator.contentRef (emulator.redact text)⟩
      stage := .Serving request } := by
    exact congrArg (fun terminals => { pipeline with
      terminals := terminals, stage := .Serving request }) (if_neg ho)
  rw [hr]
  refine ⟨{ hf.hosts with }, fun key hk => ?_, hf.outputs, hf.unshown, trivial⟩
  rw [← hn key hk]
  by_cases heq : flush = key
  · simp [StreamPipeline.noted, StreamTerminals.setSegmentOutputState, heq]
  · simp [StreamPipeline.noted, StreamTerminals.setSegmentOutputState, heq, Ne.symm heq]

-- A sealed segment whose whole text is in the document is retired.
theorem record_sealed (hs : pipeline.stage = .Upserted request flush outputId text)
    (he : flush.executionId = executionId) (hl : lane.live = segment :: second :: rest)
    (hwhole : text = emulator.rendered segment.chunks) :
    Follows emulator executionId (pipeline.record emulator request flush outputId text)
      ⟨lane.done ++ [segment.arrival], second :: rest, none⟩ := by
  have hc := hf.carries
  have hn := hf.noted
  simp only [StreamPipeline.noted, hs] at hc hn
  obtain ⟨hfirst, _, hshown, -, ht⟩ := hc he
  obtain rfl : segment.key = flush := by simpa [Lane.keys, hl] using hfirst
  have hin : segment.key ∈ pipeline.terminals.sealedSegments := by
    rw [hf.hosts.sealed segment.key he]
    simp [Lane.keys, hl]
  have hr : pipeline.record emulator request segment.key outputId text = { pipeline with
      terminals := { pipeline.terminals with
        terminals := update pipeline.terminals.terminals segment.key none
        outputStates := update (update pipeline.terminals.outputStates
          segment.key (some ⟨outputId, emulator.contentRef (emulator.redact text)⟩)) segment.key none
        sealedSegments := pipeline.terminals.sealedSegments.erase segment.key }
      stage := .Serving request } := by
    exact congrArg (fun terminals => { pipeline with
      terminals := terminals, stage := .Serving request }) (if_pos hin)
  obtain ⟨committed, houtputs, hshows⟩ := hf.outputs
  rw [hr]
  refine ⟨hf.hosts.retire hl _, fun key hk => ?_,
    ⟨committed ++ lane.shownEntries executionId, houtputs.trans (append_nil _).symm, ?_⟩,
    by simp, trivial⟩
  · by_cases hkey : segment.key = key
    · simp [StreamPipeline.noted, Lane.knownState, hkey]
    · have hhead : lane.keys.head? ≠ some key := by
        rw [hfirst]
        exact fun h => hkey (Option.some.inj h)
      have hnone := hn key hk
      rw [if_neg hkey, if_neg hhead] at hnone
      simp [StreamPipeline.noted, Lane.knownState, Ne.symm hkey, hnone]
  · rw [map_append]
    refine rel_append hshows ?_
    simp [Lane.shownEntries, hl, hshown, Shows, Segment.arrival, ht, hwhole]

theorem shows (hs : Steady emulator executionId lane pipeline.stage) :
    Forall₂ (Shows emulator fun _ _ => False) lane.arrivals
      (pipeline.doc.getOutputs executionId) := by
  obtain ⟨_, ho, hshows⟩ := hf.outputs
  unfold OutputMap.getOutputs
  rw [ho, map_append]
  obtain hl | ⟨segment, shown, hl, hshown, ht, -⟩ := hs
  · simpa [Lane.arrivals, Lane.shownEntries, hl] using hshows
  · refine rel_append hshows ?_
    simp [Lane.shownEntries, hl, hshown, Segment.arrival, Shows, ht]

end Follows

end Nteract.Outputs
