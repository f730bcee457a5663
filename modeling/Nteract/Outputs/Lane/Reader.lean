import Nteract.Outputs.Lane.Commits

namespace Nteract.Outputs

open RuntimeDoc Lib.Agenda StreamTerminals List Function

variable {Terminal Data : Type} {emulator : Emulator Terminal} {executionId : ExecutionId}
  {pipeline : StreamPipeline Terminal Data} {lane next : Lane Data}
  {terminals grown : StreamTerminals Terminal} {streamName : Stdio} {text : Bytes}

theorem StreamTerminals.feedChunk_agrees (emulator : Emulator Terminal)
    (terminals : StreamTerminals Terminal) (ho : other ≠ executionId) (streamName : Stdio)
    (text : Bytes) :
    terminals.Agrees executionId (terminals.feedChunk emulator other streamName text).1 where
  terminals key hk := by
    rw [feedChunk_terminals]
    refine update_of_ne ?_ _ _
    rintro rfl
    exact ho hk
  outputStates key hk := by rw [feedChunk_outputStates]
  currentSegments name := by
    rw [feedChunk_currentSegments, if_neg fun h => ho h.1.symm]
  lastStream := by rw [feedChunk_lastStream, update_of_ne ho.symm]
  sealedSegments key hk := by
    rw [feedChunk_sealedSegments]
    cases (terminals.feedChunk emulator other streamName text).2.sealed with
    | none => rfl
    | some sealed =>
      have hne : key ≠ ⟨other, sealed.streamName, sealed.segment⟩ := by
        rintro rfl
        exact ho hk
      simp [hne]

theorem StreamTerminals.started_feedChunk (emulator : Emulator Terminal)
    (terminals : StreamTerminals Terminal) (executionId : ExecutionId) (streamName : Stdio)
    (text : Bytes) (key : SegmentKey) :
    (terminals.feedChunk emulator executionId streamName text).1.Started key ↔
      terminals.Started key ∨ key = ⟨executionId, streamName,
        (terminals.feedChunk emulator executionId streamName text).2.segment⟩ := by
  obtain ⟨_, _, hs, -⟩ := feedChunk_segment emulator terminals executionId streamName text
  obtain ⟨owner, name, number⟩ := key
  unfold Started
  rw [feedChunk_currentSegments]
  by_cases hh : owner = executionId ∧ name = streamName
  · obtain ⟨rfl, rfl⟩ := hh
    rw [if_pos ⟨rfl, rfl⟩, hs]
    cases terminals.currentSegments owner name with
    | none => simp
    | some old =>
      simp
      omega
  · rw [if_neg hh]
    have hne : (⟨owner, name, number⟩ : SegmentKey) ≠ ⟨executionId, streamName,
        (terminals.feedChunk emulator executionId streamName text).2.segment⟩ := by
      rintro he
      obtain ⟨rfl, rfl, -⟩ := SegmentKey.mk.inj he
      exact hh ⟨rfl, rfl⟩
    simp [hne]

theorem StreamTerminals.not_started
    (hs : (terminals.feedChunk emulator executionId streamName text).2.sealed ≠ none) :
    ¬terminals.Started ⟨executionId, streamName,
      (terminals.feedChunk emulator executionId streamName text).2.segment⟩ := by
  obtain ⟨_, -, hn, ho⟩ := feedChunk_segment emulator terminals executionId streamName text
  rintro ⟨old, hc, hle⟩
  have hc : terminals.currentSegments executionId streamName = some old := hc
  rw [hn, ho hs, hc] at hle
  exact Nat.not_succ_le_self old hle

-- A chunk is fed to the last live segment, or a new one behind it.
theorem Hosts.feed (hh : Hosts emulator executionId terminals lane)
    (hkey : ⟨executionId, streamName, (terminals.feedChunk emulator executionId
      streamName text).2.segment⟩ = key)
    (hlive : lane.live = init ∧ chunks = [] ∧ key ∉ lane.keys ∨ lane.live = init ++ [⟨key, chunks⟩])
    (hsealed : ∀ other : SegmentKey, other.executionId = executionId → (other ∈
      (terminals.feedChunk emulator executionId streamName text).1.sealedSegments ↔
        other ∈ init.map (·.key))) :
    Hosts emulator executionId (terminals.feedChunk emulator executionId streamName text).1
      { lane with live := init ++ [⟨key, chunks ++ [text]⟩] } := by
  have hown : key.executionId = executionId := by rw [← hkey]
  have hnodup := hh.nodup
  have hold : (∀ segment ∈ init, segment ∈ lane.live) ∧ (init.map (·.key) ++ [key]).Nodup ∧
      (terminals.terminals key).getD emulator.new = emulator.fed chunks ∧
      ∀ other ∈ lane.keys, other ∈ init.map (·.key) ++ [key] := by
    rcases hlive with ⟨rfl, rfl, hout⟩ | hl
    · refine ⟨fun _ hm => hm, ?_, by rw [hh.absent key hown hout]; rfl, fun _ => mem_append_left _⟩
      exact nodup_append.mpr ⟨hnodup, nodup_singleton key,
        fun other hm _ hsame he => hout (mem_singleton.mp hsame ▸ he ▸ hm)⟩
    · have hsame : lane.keys = init.map (·.key) ++ [key] := by simp [Lane.keys, hl]
      rw [hsame] at hnodup ⊢
      exact ⟨fun _ hm => hl ▸ mem_append_left _ hm, hnodup,
        by rw [hh.terminal ⟨key, chunks⟩ (by simp [hl])]; rfl, fun _ => id⟩
  obtain ⟨hinit, hnodup, hchunks, hcovers⟩ := hold
  have hterminals := feedChunk_terminals emulator terminals executionId streamName text
  simp only [hkey, hchunks, ← Emulator.fed_append] at hterminals
  have hkeys : ({ lane with live := init ++ [⟨key, chunks ++ [text]⟩] } : Lane Data).keys =
      init.map (·.key) ++ [key] := by simp [Lane.keys]
  have hlast : (init.map (·.key) ++ [key]).getLast? = some key := List.getLast?_concat
  have hcurrent : (terminals.feedChunk emulator executionId streamName text).1.currentSegments
      executionId key.streamName = some key.segment := by
    rw [← hkey, feedChunk_currentSegments, if_pos ⟨rfl, rfl⟩]
  rw [← hkeys] at hnodup hcovers hlast
  have hmem : ∀ other ∈ ({ lane with live := init ++ [⟨key, chunks ++ [text]⟩] } :
      Lane Data).keys, other ∈ lane.keys ∨ other = key := by
    intro other hm
    rw [hkeys] at hm
    refine (mem_append.mp hm).imp (fun hm => ?_) mem_singleton.mp
    obtain ⟨segment, hs, rfl⟩ := mem_map.mp hm
    exact mem_map_of_mem (hinit segment hs)
  refine ⟨hnodup, fun other hm => (hmem other hm).elim (hh.own other) fun he => he ▸ hown,
    ?_, ?_, ?_, ?_, ?_, ?_⟩
  · intro segment hm
    rw [hterminals]
    rcases mem_append.mp hm with hm | hm
    · have hne : segment.key ≠ key := by
        intro he
        rw [hkeys] at hnodup
        exact (nodup_append.mp hnodup).2.2 _ (mem_map_of_mem hm) _ (by simp) he
      rw [update_of_ne hne]
      exact hh.terminal segment (hinit segment hm)
    · obtain rfl := mem_singleton.mp hm
      exact update_self ..
  · intro other ho hn
    have hne : other ≠ key := by
      rintro rfl
      exact hn (mem_of_getLast? hlast)
    rw [hterminals, update_of_ne hne]
    exact hh.absent other ho fun hm => hn (hcovers other hm)
  · rw [hlast, ← hkey, feedChunk_lastStream]
    exact update_self ..
  · intro other ho
    obtain rfl := Option.some.inj (hlast.symm.trans ho)
    exact hcurrent
  · intro other hm
    rcases hmem other hm with hm | rfl
    · exact (started_feedChunk ..).mpr (.inl (hh.started other hm))
    · refine ⟨_, ?_, le_refl _⟩
      rw [hown]
      exact hcurrent
  · intro other ho
    rw [hkeys, dropLast_concat]
    exact hsealed other ho

theorem extendRun_run (before : List (Arrival Data)) (name streamName : Stdio)
    (chunks : List Bytes) (text : Bytes) :
    extendRun (before ++ [.Run name chunks]) streamName text =
      if name = streamName then before ++ [.Run streamName (chunks ++ [text])]
      else before ++ [.Run name chunks] ++ [.Run streamName [text]] := by
  simp [extendRun]

-- The chunk goes to the last segment, or to a new one with the last sealed.
theorem Hosts.placed (hh : Hosts emulator executionId terminals lane)
    (hd : lane.live = [] → lane.done = []) (streamName : Stdio) (text : Bytes)
    (hp : (terminals.feedChunk emulator executionId streamName text).2 = placement)
    (hk : ⟨executionId, streamName, placement.segment⟩ = key) :
    ∃ init chunks, Hosts emulator executionId
        (terminals.feedChunk emulator executionId streamName text).1
        { lane with live := init ++ [⟨key, chunks ++ [text]⟩] } ∧
      ({ lane with live := init ++ [⟨key, chunks ++ [text]⟩] } : Lane Data).arrivals =
        extendRun lane.arrivals streamName text ∧
      (lane.keys = init.map (·.key) ∧ key ∉ lane.keys ∧ (placement.sealed.map fun sealed =>
          (⟨executionId, sealed.streamName, sealed.segment⟩ : SegmentKey)) = lane.keys.getLast? ∨
        lane.keys = init.map (·.key) ++ [key] ∧ placement.sealed = none) := by
  have hs := feedChunk_sealedSegments emulator terminals executionId streamName text
  have hlast := hh.last
  rw [hp] at hs
  rw [← hp] at hk
  rcases eq_nil_or_concat lane.live with hl | ⟨init, segment, hl⟩
  · have hkeys : lane.keys = [] := by simp [Lane.keys, hl]
    rw [hkeys] at hlast
    obtain rfl := hp.symm.trans (feedChunk_continues _ _ _ _ _ (by simp [StreamTerminals.Continues, hlast]))
    have hout : key ∉ lane.keys := by simp [hkeys]
    refine ⟨[], [], hh.feed hk (.inl ⟨hl, rfl, hout⟩) fun other ho => ?_, ?_,
      .inl ⟨hkeys, hout, by simp [hkeys]⟩⟩
    · rw [hs, hh.sealed other ho, hkeys]
      rfl
    · simp [Lane.arrivals, hl, hd hl, extendRun, Segment.arrival, ← hk]
  · rw [concat_eq_append] at hl
    have hkeys : lane.keys = init.map (·.key) ++ [segment.key] := by simp [Lane.keys, hl]
    have hown : segment.key.executionId = executionId := hh.own _ (by simp [hkeys])
    have hlastKey : lane.keys.getLast? = some segment.key := by simp [hkeys]
    have hcurrent := hh.current segment.key hlastKey
    have ha : lane.arrivals = lane.done ++ init.map Segment.arrival ++
        [.Run segment.key.streamName segment.chunks] := by
      simp [Lane.arrivals, hl, Segment.arrival]
    rw [hlastKey] at hlast
    by_cases hn : segment.key.streamName = streamName
    · subst hn
      obtain rfl := hp.symm.trans (feedChunk_continues _ _ _ _ _ (by simp [StreamTerminals.Continues, hlast]))
      rw [hp, hcurrent, ← hown] at hk
      obtain rfl : segment.key = key := hk
      refine ⟨init, segment.chunks, hh.feed ?_ (.inr hl) fun other ho => ?_, ?_, .inr ⟨hkeys, rfl⟩⟩
      · rw [hp, hcurrent, ← hown]
        rfl
      · rw [hs, hh.sealed other ho, hkeys, dropLast_concat]
      · rw [ha, extendRun_run, if_pos rfl]
        simp [Lane.arrivals, Segment.arrival]
    · obtain rfl := hp.symm.trans (feedChunk_switches _ _ _ _ _ hlast hn hcurrent)
      have hout : key ∉ lane.keys := by
        rw [← hk]
        exact fun hm => not_started (by rw [hp]; simp) (hh.started _ hm)
      refine ⟨lane.live, [], hh.feed hk (.inl ⟨rfl, rfl, hout⟩) fun other ho => ?_, ?_,
        .inl ⟨rfl, hout, ?_⟩⟩
      · rw [hs, Finset.mem_insert, hh.sealed other ho, hl]
        rw [hkeys, dropLast_concat]
        simp only [map_append, mem_append, map_singleton, mem_singleton]
        rw [or_comm, ← hown]
      · rw [ha, extendRun_run, if_neg hn]
        simp [Lane.arrivals, hl, Segment.arrival, ← hk]
      · rw [hlastKey, Option.map_some, ← hown]

theorem Lane.shownEntries_eq (executionId : ExecutionId) (lane : Lane Data) :
    lane.shownEntries executionId =
      match lane.keys.head?, lane.shown with
      | some key, some shown =>
        [⟨executionId, shown.outputId, shown.seq, .Stream key.streamName shown.text⟩]
      | _, _ => [] := by
  unfold Lane.shownEntries Lane.keys
  cases lane.live with
  | _ => cases lane.shown <;> rfl

theorem Carries.grow (hc : Carries emulator executionId terminals lane stage)
    (hs : grown.outputStates = terminals.outputStates) (hshown : next.shown = lane.shown)
    (hh : ∀ key, lane.keys.head? = some key → next.keys.head? = some key) :
    Carries emulator executionId grown next stage := by
  cases stage with
  | Rendered _ flush | Published _ flush =>
    refine ⟨?_, fun he => hh flush (hc.2 he)⟩
    rw [hs]
    exact hc.1
  | Upserted _ flush =>
    intro he
    rw [hshown]
    exact ⟨hh flush (hc he).1, (hc he).2⟩
  | _ => trivial

theorem noted_feedChunk (now : Nat) (key : SegmentKey) :
    (pipeline.feedChunk emulator executionId streamName text now).1.noted emulator key =
      pipeline.noted emulator key := by
  unfold StreamPipeline.noted StreamPipeline.feedChunk
  dsimp only
  rw [feedChunk_outputStates]

theorem Follows.feed (hf : Follows emulator executionId pipeline lane)
    (hfed : pipeline.feedChunk emulator executionId streamName text now = fed) :
    ∃ next, Follows emulator executionId fed.1 next ∧
      next.arrivals = extendRun lane.arrivals streamName text ∧
      (next.keys = lane.keys ++ [fed.2.key] ∧ fed.2.key ∉ lane.keys ∧
          fed.2.owed = lane.keys.getLast? ∨
        next.keys = lane.keys ∧ lane.keys.getLast? = some fed.2.key ∧ fed.2.owed = none) := by
  obtain ⟨init, _, hh, ha, hk⟩ :=
    hf.hosts.placed (fun hl => (hf.unshown hl).1) streamName text rfl rfl
  have hs := feedChunk_outputStates emulator pipeline.terminals executionId streamName text
  generalize hnext : ({ lane with live := _ } : Lane Data) = next at hh ha
  obtain ⟨hdone, hshown⟩ : next.done = lane.done ∧ next.shown = lane.shown := by simp [← hnext]
  subst hfed
  have hkeys : next.keys = init.map (·.key) ++
      [(pipeline.feedChunk emulator executionId streamName text now).2.key] := by
    simp only [← hnext, Lane.keys, map_append]
    rfl
  have hhead : lane.keys = [] ∨ next.keys.head? = lane.keys.head? := by
    rw [hkeys]
    rcases hk with ⟨hk, -⟩ | ⟨hk, -⟩
    · rw [hk]
      cases init with
      | nil => exact .inl rfl
      | cons => exact .inr rfl
    · rw [hk]
      exact .inr rfl
  refine ⟨next, ⟨hh, fun key hown => ?_, ?_, fun hl => ?_, hf.carries.grow hs hshown ?_⟩, ha, ?_⟩
  · rw [noted_feedChunk, hf.noted key hown]
    rcases hhead with hnil | hhead
    · simp [hnil, Lane.knownState, hshown, (hf.unshown (map_eq_nil_iff.mp hnil)).2]
    · simp [hhead, Lane.knownState, hshown]
  · obtain ⟨committed, ho, hshows⟩ := hf.outputs
    rw [hdone]
    refine ⟨committed, ho.trans (congrArg (committed ++ ·) ?_), hshows⟩
    rw [Lane.shownEntries_eq, Lane.shownEntries_eq, hshown]
    rcases hhead with hnil | hhead
    · simp [(hf.unshown (map_eq_nil_iff.mp hnil)).2]
    · rw [hhead]
  · simp [Lane.keys, hl] at hkeys
  · intro key he
    rcases hhead with hnil | hhead
    · simp [hnil] at he
    · exact hhead.trans he
  · rw [hkeys]
    rcases hk with ⟨hk, hout, howed⟩ | ⟨hk, hsealed⟩
    · exact .inl ⟨by rw [hk], hout, howed⟩
    · refine .inr ⟨hk.symm, ?_, by simp [StreamPipeline.feedChunk, Ingest.owed, hsealed]⟩
      rw [hk, List.getLast?_concat]
      rfl

end Nteract.Outputs
