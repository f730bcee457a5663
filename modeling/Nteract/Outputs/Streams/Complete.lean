import Nteract.Outputs.Streams

namespace Nteract.Outputs

open RuntimeDoc Lib.Agenda Lib.Transition StreamFlushBuffer List Option

variable {Terminal Data : Type} {emulator : Emulator Terminal} {executionId : ExecutionId}
  {pipeline after : StreamPipeline Terminal Data} {state : Streams Terminal Data} {lane : Lane Data}

theorem agenda_owed (pipeline : StreamPipeline Terminal Data) (key : SegmentKey) :
    agenda executionId pipeline (some key) = agenda executionId pipeline none ++ [some key] := by
  simp [agenda]

theorem takeExecution_flushes (now : Nat) (ho : pipeline.flushes.IsFlushOrder executionId owned) :
    (pipeline.takeExecution executionId owned now).2 = owned :=
  flushExecution_flushes fun _ hk => (ho.mem.mp hk).1

theorem takeExecution_holds (keys : List SegmentKey) (now : Nat) (key : SegmentKey) :
    (pipeline.takeExecution executionId keys now).1.flushes.Holds key ↔
      pipeline.flushes.Holds key ∧ key.executionId ≠ executionId := by
  simp only [StreamPipeline.takeExecution, clearExecution_holds, flushExecution_holds]

-- The reader owes no flush any more.
theorem Open.unowed (ho : Open executionId pipeline ingest)
    (ht : after.terminals = pipeline.terminals)
    (ha : ∀ mark ∈ agenda executionId after none,
      mark ∈ agenda executionId pipeline (ingest.bind Ingest.owed) ∨
        ∃ key, mark = some key ∧ key.executionId ≠ executionId)
    (hp : ∀ key ∈ after.periodic, key ∈ pipeline.periodic ∨
      (key.executionId = executionId → pipeline.terminals.Started key))
    (hn : following.bind Ingest.owed = none)
    (hh : ∀ key, key.executionId = executionId →
      pipeline.flushes.Holds key ∨ ingest.map Ingest.key = some key →
      after.flushes.Holds key ∨ following.map Ingest.key = some key) :
    Open executionId after following := by
  refine ⟨?_, fun key he hk => ⟨?_, fun current hi howed => ?_⟩, fun key he hk => ?_⟩
  · rw [hn]
    intro hm
    obtain hm | ⟨key, hk, -⟩ := ha none hm
    · exact ho.unended hm
    · cases hk
  · rw [ht]
    rw [hn] at hk
    rcases hk with hm | hm
    · obtain hm | ⟨other, hk, hne⟩ := ha _ hm
      · exact (ho.asked key he (.inl hm)).1
      · exact absurd (some.inj hk ▸ he) hne
    · rcases hp key hm with hm | hm
      · exact (ho.asked key he (.inr hm)).1
      · exact hm he
  · rw [hi] at hn
    exact absurd hn howed
  · rw [ht] at hk
    exact hh key he (ho.held key he hk)

namespace Standing

variable (hstands : Standing emulator executionId state lane)

include hstands

theorem chunk {chunk : StreamChunk} (now : Nat) (hreader : state.reader = .Reading)
    (hopen : chunk.executionId ∉ state.closed)
    (hfed : state.pipeline.feedChunk emulator chunk.executionId chunk.streamName chunk.text now =
      fed)
    (hc : Caught emulator executionId fed.1) :
    ∃ lane, Standing emulator executionId { state with
        reader := .Ingesting fed.2, pipeline := fed.1, read := state.read ++ [chunk] } lane := by
  obtain ⟨reader, pipeline, _, _, _⟩ := state
  obtain ⟨owner, streamName, text⟩ := chunk
  obtain rfl : reader = _ := hreader
  have hf := hstands.follows
  have ho : InOrder (agenda executionId pipeline none) _ := hstands.order
  have hkey : fed.2.key.executionId = owner := by rw [← hfed]; rfl
  have howner : ∀ key, fed.2.owed = some key → key.executionId = owner := by
    intro key howed
    rw [Ingest.owed_executionId howed, ← hfed]
    rfl
  have hagenda : ∀ owed, agenda executionId fed.1 owed =
      agenda executionId pipeline none ++ (owed.map some).toList := by
    subst hfed
    simp [agenda, queue, StreamPipeline.feedChunk]
  have hunended : none ∉ agenda executionId pipeline none →
      none ∉ agenda executionId fed.1 fed.2.owed := by
    rw [hagenda, mem_append, not_or]
    exact fun hn => ⟨hn, by simp⟩
  have hstarted : ∀ key, fed.1.terminals.Started key ↔
      pipeline.terminals.Started key ∨ key = fed.2.key := by
    subst hfed
    exact StreamTerminals.started_feedChunk emulator pipeline.terminals owner streamName text
  by_cases he : owner = executionId
  · subst he
    obtain ⟨next, hnext, harrivals, hk⟩ := hf.feed hfed
    have hopened := hstands.opened hopen
    have hnew : fed.2.owed ≠ none → ¬pipeline.terminals.Started fed.2.key := by
      subst hfed
      exact fun howed => StreamTerminals.not_started fun hn =>
        howed (congrArg (Option.map _) hn)
    have hasked : ∀ key, key.executionId = owner →
        some key ∈ agenda owner pipeline none ∨ key ∈ pipeline.periodic →
        fed.1.terminals.Started key ∧ (fed.2.owed ≠ none → key ≠ fed.2.key) := by
      intro key hown hm
      have hs := (hopened.asked key hown hm).1
      refine ⟨(hstarted key).mpr (.inl hs), ?_⟩
      rintro howed rfl
      exact hnew howed hs
    refine ⟨next, hnext, hc, ?_, ?_, fun _ => ⟨?_, fun key hown hm => ?_, fun key hown hs => ?_⟩,
      fun hclosed => absurd hclosed hopen, ?_, ?_⟩
    · rw [harrivals, hstands.arrivals, streamRuns_concat, if_pos rfl]
    · show InOrder (agenda owner fed.1 fed.2.owed) _
      rw [hagenda]
      rcases hk with ⟨hk, hout, howed⟩ | ⟨hk, -⟩
      · rw [hk, howed]
        rcases eq_nil_or_concat lane.keys with hnil | ⟨_, last, hl⟩
        · simp [hnil, InOrder]
        · rw [concat_eq_append] at hl
          rw [hl, map_append] at ho
          rw [hl, List.getLast?_concat] at howed ⊢
          have hne : last ≠ fed.2.key := by
            rintro rfl
            exact hout (by simp [hl])
          have hn : some fed.2.key ∉ agenda owner pipeline none := fun hm =>
            (hasked _ hkey (.inl hm)).2 (by simp [howed]) rfl
          simpa using ho.concat hn (by simpa using hne)
      · rw [hk]
        exact ho.append _
    · exact hunended hopened.unended
    · suffices hs : fed.1.terminals.Started key ∧ (fed.2.owed ≠ none → key ≠ fed.2.key) by
        refine ⟨hs.1, ?_⟩
        rintro _ ⟨⟩
        exact hs.2
      have hm : some key ∈ agenda owner fed.1 fed.2.owed ∨ key ∈ fed.1.periodic := hm
      rw [hagenda, mem_append] at hm
      rcases hm with (hm | hm) | hm
      · exact hasked key hown (.inl hm)
      · obtain ⟨_, howed, ⟨⟩⟩ := map_eq_some_iff.mp (mem_toList.mp hm)
        obtain ⟨-, hout, hlast⟩ | ⟨-, -, hnone⟩ := hk
        · have hmem := mem_of_getLast? (hlast.symm.trans howed)
          refine ⟨(hstarted key).mpr (.inl (hf.hosts.started key hmem)), ?_⟩
          rintro - rfl
          exact hout hmem
        · simp [hnone] at howed
      · subst hfed
        exact hasked key hown (.inr hm)
    · refine ((hstarted key).mp hs).imp (fun hs => ?_) fun hs => congrArg some hs.symm
      have hh := (hopened.held key hown hs).resolve_right fun h => by cases h
      subst hfed
      exact hh
    · subst hfed
      exact fun hp => absurd (hstands.steady hp).1 hopen
    · rintro _ ⟨⟩ -
      refine ⟨hopen, ?_⟩
      rcases hk with ⟨hk, -⟩ | ⟨hk, hl, -⟩
      · rw [hk, List.getLast?_concat]
      · rw [hk, hl]
  · subst hfed
    have ha := StreamTerminals.feedChunk_agrees emulator pipeline.terminals he streamName text
    have hs := StreamTerminals.feedChunk_outputStates emulator pipeline.terminals owner
      streamName text
    refine ⟨lane, hf.frame ha rfl (fun key hown => ?_) (hf.carries.grow hs rfl fun _ => id), hc, ?_,
      ?_, fun hopen => ⟨?_, ?_, ?_⟩, hstands.closing, hstands.steady, ?_⟩
    · exact noted_feedChunk now key
    · rw [streamRuns_concat, if_neg he, hstands.arrivals]
    · exact hagenda _ ▸ ho.append _
    · exact hunended (hstands.opened hopen).unended
    · intro key hown hm
      have hm : some key ∈ agenda executionId _ _ ∨ key ∈ pipeline.periodic := hm
      rw [hagenda, mem_append] at hm
      have hold : some key ∈ agenda executionId pipeline none ∨ key ∈ pipeline.periodic := by
        rcases hm with (hm | hm) | hm
        · exact .inl hm
        · obtain ⟨_, howed, ⟨⟩⟩ := map_eq_some_iff.mp (mem_toList.mp hm)
          exact absurd ((howner key howed).symm.trans hown) he
        · exact .inr hm
      refine ⟨(ha.started hown).mpr ((hstands.opened hopen).asked key hown hold).1, ?_⟩
      rintro _ ⟨⟩ - rfl
      exact he hown
    · intro key hown hk
      exact .inl (((hstands.opened hopen).held key hown ((ha.started hown).mp hk)).resolve_right
        fun h => by cases h)
    · rintro _ ⟨⟩ hown
      exact absurd hown he

theorem reads (flushes : StreamFlushBuffer) (more : List PriorityStreamCommit)
    (periodic : List PendingStreamFlush) (reader : StreamReader)
    (ho : InOrder (agenda executionId { state.pipeline with
      flushes, priority := state.pipeline.priority ++ more, periodic } none) (lane.keys.map some))
    (hopen : executionId ∉ state.closed → Open executionId { state.pipeline with
      flushes, priority := state.pipeline.priority ++ more, periodic } reader.ingest)
    (hn : reader.ingest.bind Ingest.owed = none)
    (hi : ∀ current, reader.ingest = some current → ∃ earlier,
      state.reader.ingest = some earlier ∧ earlier.executionId = current.executionId ∧
        earlier.key = current.key) :
    Standing emulator executionId { state with
      reader
      pipeline := { state.pipeline with
        flushes, priority := state.pipeline.priority ++ more, periodic } } lane := by
  have hf := hstands.follows
  refine ⟨⟨hf.hosts, hf.noted, hf.outputs, hf.unshown, hf.carries⟩, hstands.caught,
    hstands.arrivals, ?_, hopen, fun hclosed => ?_, hstands.steady, fun current hc hown => ?_⟩
  · rw [hn]
    exact ho
  · refine (hstands.closing hclosed).imp_right ?_
    rintro ⟨segment, hlast, hb | hfly⟩
    · have hq := hb.append (more.flatMap (·.marks executionId))
      rw [queue, ← flatMap_append, append_assoc] at hq
      exact ⟨segment, hlast, .inl hq⟩
    · exact ⟨segment, hlast, .inr hfly⟩
  · obtain ⟨earlier, he, howner, hkey⟩ := hi current hc
    rw [← hkey]
    exact hstands.ingesting earlier he (howner.trans hown)

theorem ingest (dropped : Bool) (hreader : state.reader = .Ingesting current) :
    Standing emulator executionId { state with
        reader := ((state.pipeline.ingestStep current dropped).2.map .Ingesting).getD .Reading
        pipeline := (state.pipeline.ingestStep current dropped).1 } lane := by
  obtain ⟨reader, pipeline, read, closed, flushed⟩ := state
  obtain rfl : reader = _ := hreader
  obtain ⟨owner, streamName, chunkBytes, now, stage⟩ := current
  have ho := hstands.order
  cases stage with
  | Sealing placement =>
    obtain ⟨segment, sealed⟩ := placement
    have hi : ∀ current, (StreamReader.Ingesting
        ⟨owner, streamName, chunkBytes, now, .Recording segment⟩).ingest = some current →
        ∃ earlier, some (⟨owner, streamName, chunkBytes, now, .Sealing ⟨segment, sealed⟩⟩ : Ingest) =
          some earlier ∧ earlier.executionId = current.executionId ∧ earlier.key = current.key := by
      rintro _ ⟨⟩
      exact ⟨_, rfl, rfl, rfl⟩
    cases sealed with
    | none =>
      have hreads := hstands.reads pipeline.flushes [] pipeline.periodic
        (.Ingesting ⟨owner, streamName, chunkBytes, now, .Recording segment⟩)
      simp only [append_nil] at hreads
      exact hreads ho (fun hopen => (hstands.opened hopen).unowed rfl (fun _ => .inl)
        (fun _ => .inl) rfl fun _ _ => id) rfl hi
    | some sealed =>
      let key : SegmentKey := ⟨owner, sealed.streamName, sealed.segment⟩
      have ho : InOrder (agenda executionId pipeline (some key)) _ := ho
      rw [agenda_owed] at ho
      have hheld : owner = executionId → pipeline.flushes.Holds key := by
        intro he
        have hopened := hstands.opened (hstands.ingesting _ rfl he).1
        have hasked := hopened.asked key he
          (.inl (by simp [agenda, StreamReader.ingest, Ingest.owed, key]))
        refine (hopened.held _ he hasked.1).resolve_right fun hk => ?_
        exact hasked.2 _ rfl (fun h => by cases h) (some.inj hk).symm
      cases htaken : (pipeline.flushes.takeSegment key now).2 with
      | none =>
        -- only a segment of another execution can be without an entry
        have hne : owner ≠ executionId := by
          intro he
          have hs := takeKey_held (hheld he) now
          rw [StreamFlushBuffer.takeSegment, hs] at htaken
          cases htaken
        have hreads := hstands.reads (pipeline.flushes.takeSegment key now).1 [] pipeline.periodic
          (.Ingesting ⟨owner, streamName, chunkBytes, now, .Recording segment⟩)
        simp only [append_nil] at hreads
        simp only [key] at htaken
        simp only [StreamPipeline.ingestStep, htaken]
        refine hreads (ho.dropLast fun hm => ?_) (fun hopen => (hstands.opened hopen).unowed rfl
          (fun mark hm => .inl ?_) (fun _ => .inl) rfl fun key _ => ?_) rfl hi
        · exact hne (hstands.follows.hosts.own _ (by simpa using hm))
        · exact agenda_owed pipeline _ ▸ mem_append_left _ hm
        · exact Or.imp_left (takeKey_holds _ _ _ _).mpr
      | some flush =>
        obtain rfl := takeKey_eq_some htaken
        have hmarks : agenda executionId { pipeline with
            flushes := (pipeline.flushes.takeSegment key now).1
            priority := pipeline.priority ++ [⟨[key], none, none⟩] } none =
            agenda executionId pipeline none ++ [some key] := by
          simp [agenda, queue, PriorityStreamCommit.marks, PriorityStreamCommit.Ends]
        simp only [key] at htaken
        simp only [StreamPipeline.ingestStep, htaken]
        refine hstands.reads _ [_] pipeline.periodic (.Ingesting _) (hmarks ▸ ho)
          (fun hopen => (hstands.opened hopen).unowed rfl (fun mark hm => .inl ?_) (fun _ => .inl) rfl
            fun key _ => ?_) rfl hi
        · exact agenda_owed pipeline _ ▸ hmarks ▸ hm
        · exact Or.imp_left (takeKey_holds _ _ _ _).mpr
  | Recording segment =>
    have hreads : ∀ periodic, (∀ key ∈ periodic, key ∈ pipeline.periodic ∨
        key = ⟨owner, streamName, segment⟩) → Standing emulator executionId
        ⟨.Reading, { pipeline with
          flushes := (pipeline.flushes.recordChunk ⟨owner, streamName, segment⟩ chunkBytes now).1
          periodic }, read, closed, flushed⟩ lane := by
      intro periodic hp
      have hreads := hstands.reads (pipeline.flushes.recordChunk ⟨owner, streamName, segment⟩
        chunkBytes now).1 [] periodic .Reading
      simp only [append_nil] at hreads
      refine hreads ho (fun hopen => (hstands.opened hopen).unowed rfl (fun _ => .inl)
        (fun key hm => (hp key hm).imp_right ?_) rfl fun key _ hk => .inl ?_) rfl fun _ h => by cases h
      · rintro rfl hown
        exact hstands.follows.hosts.started _ (mem_of_getLast? (hstands.ingesting _ rfl hown).2)
      · rw [recordChunk_holds]
        exact hk.imp_right fun hk => (some.inj hk).symm
    simp only [StreamPipeline.ingestStep]
    split
    · exact hreads _ fun _ => .inl
    · rename_i flush hflush
      obtain rfl := recordChunk_eq_some hflush
      unfold StreamPipeline.requestFlush
      split
      · exact hreads _ fun _ => .inl
      · refine hreads _ fun key hm => ?_
        exact (mem_append.mp hm).imp_right mem_singleton.mp

theorem boundary (now : Nat) (hreader : state.reader = .Reading) (hopen : owner ∉ state.closed)
    (horder : state.pipeline.flushes.IsFlushOrder owner owned) (hr : reader.ingest = none)
    (requests : List PriorityStreamCommit) (acked : Option ExecutionId)
    (hmarks : requests.flatMap (·.marks executionId) =
      owned.map some ++ if owner = executionId ∧ requests ≠ [] then [none] else [])
    (hacked : acked = state.pipeline.acked ∨ acked = some owner ∧ owned = []) :
    Standing emulator executionId { state with
        reader := reader
        pipeline := { (state.pipeline.takeExecution owner owned now).1 with
          priority := state.pipeline.priority ++ requests, acked }
        closed := state.closed ++ [owner] } lane := by
  have hf := hstands.follows
  have hh := hf.hosts
  have ho := hstands.order
  have hopened := hstands.opened
  rw [hreader] at ho hopened
  have hagenda : agenda executionId { (state.pipeline.takeExecution owner owned now).1 with
      priority := state.pipeline.priority ++ requests, acked } none =
      agenda executionId state.pipeline none ++ requests.flatMap (·.marks executionId) := by
    simp [agenda, queue, StreamPipeline.takeExecution]
  have hq : queue executionId { (state.pipeline.takeExecution owner owned now).1 with
      priority := state.pipeline.priority ++ requests, acked } =
      queue executionId state.pipeline ++ requests.flatMap (·.marks executionId) := by
    simp [queue, StreamPipeline.takeExecution]
  -- every live segment is in the flush buffer
  have hkeys : owner = executionId → ∀ key ∈ lane.keys, key ∈ owned := by
    rintro rfl key hm
    have hheld := (hopened hopen).held key (hh.own key hm) (hh.started key hm)
    exact horder.mem.mpr ⟨hheld.resolve_right (fun h => by cases h), hh.own key hm⟩
  have hempty : owner = executionId → owned = [] → lane.live = [] := by
    rintro he rfl
    exact map_eq_nil_iff.mp (eq_nil_iff_forall_not_mem.mpr fun key hm =>
      not_mem_nil (hkeys he key hm))
  refine ⟨⟨hh, hf.noted, hf.outputs, hf.unshown, hf.carries⟩, hstands.caught,
    hstands.arrivals, ?_, fun hclosed => ?_, fun hclosed => ?_, fun hp => ?_, ?_⟩
  · rw [hr]
    exact hagenda ▸ ho.append _
  · rw [mem_append, mem_singleton, not_or] at hclosed
    rw [hr]
    refine (hopened hclosed.1).unowed rfl (fun mark hm => ?_) (fun _ => .inl) rfl
      fun key he hk => .inl ?_
    · rw [hagenda, hmarks, if_neg fun h => hclosed.2 h.1.symm, append_nil] at hm
      refine (mem_append.mp hm).imp_right fun hm => ?_
      obtain ⟨key, hk, rfl⟩ := mem_map.mp hm
      refine ⟨key, rfl, ?_⟩
      rw [(horder.mem.mp hk).2]
      exact fun h => hclosed.2 h.symm
    · refine (takeExecution_holds owned now key).mpr ⟨hk.resolve_right (fun h => by cases h), ?_⟩
      rw [he]
      exact hclosed.2
  · by_cases he : owner = executionId
    · cases hlast : lane.live.getLast? with
      | none => exact .inl (.inl (List.getLast?_eq_none_iff.mp hlast))
      | some segment =>
        refine .inr ⟨segment, hlast, .inl ?_⟩
        have hm := hkeys he segment.key (mem_map_of_mem (mem_of_getLast? hlast))
        have hn := (hopened (he ▸ hopen)).unended
        rw [hq, hmarks, ← append_assoc]
        refine (Before.of_notMem (by simp [hm]) fun h => hn ?_).append _
        have h : none ∈ queue executionId state.pipeline := by simpa using h
        simp [agenda, h]
    · have hold : executionId ∈ state.closed := by simpa [Ne.symm he] using hclosed
      refine (hstands.closing hold).imp_right ?_
      rintro ⟨segment, hlast, hb | hfly⟩
      · exact ⟨segment, hlast, .inl (hq ▸ hb.append _)⟩
      · exact ⟨segment, hlast, .inr hfly⟩
  · have hold : state.Processed executionId ∨
        executionId = owner ∧ Steady emulator executionId lane state.pipeline.stage := by
      rcases hacked with rfl | ⟨rfl, hn⟩
      · exact .inl hp
      · rcases hp with hdone | hacked | hflushed
        · exact .inl (.inl hdone)
        · obtain rfl := some.inj hacked
          exact .inr ⟨rfl, .inl (hempty rfl hn)⟩
        · exact .inl (.inr (.inr hflushed))
    rcases hold with hold | ⟨rfl, hsteady⟩
    · exact (hstands.steady hold).imp_left (mem_append_left _)
    · exact ⟨by simp, hsteady⟩
  · rw [hr]
    exact fun _ h => by cases h

theorem acknowledge
    (hreader : state.reader = .Awaiting owner) (hacked : state.pipeline.acked = some owner) :
    Standing emulator executionId { state with
        reader := .Reading
        pipeline := { state.pipeline with acked := none }
        flushed := state.flushed ++ [owner] } lane := by
  obtain ⟨reader, _, _, _, _⟩ := state
  obtain rfl : reader = _ := hreader
  have hf := hstands.follows
  refine ⟨⟨hf.hosts, hf.noted, hf.outputs, hf.unshown, hf.carries⟩, hstands.caught,
    hstands.arrivals, hstands.order, fun hopen => ?_, hstands.closing, ?_, nofun⟩
  · have ho := hstands.opened hopen
    exact ⟨ho.unended, ho.asked, ho.held⟩
  · rintro (hdone | hacked | hflushed)
    · exact hstands.steady (.inl hdone)
    · cases hacked
    · rcases mem_append.mp hflushed with hflushed | hflushed
      · exact hstands.steady (.inr (.inr hflushed))
      · obtain rfl := mem_singleton.mp hflushed
        exact hstands.steady (.inr (.inl hacked))

theorem step (hs : state.step emulator event = some last)
    (hc : Caught emulator executionId last.pipeline) :
    ∃ lane, Standing emulator executionId last lane := by
  cases event with
  | Chunk _ now =>
    simp only [Streams.step, ite_none_right_eq_some, some.injEq] at hs
    obtain ⟨⟨hr, hopen⟩, rfl⟩ := hs
    exact hstands.chunk now hr hopen rfl hc
  | Ingest dropped =>
    cases hr : state.reader with
    | Reading | Awaiting => simp [Streams.step, hr] at hs
    | Ingesting =>
      simp only [Streams.step, hr, some.injEq] at hs
      subst hs
      exact ⟨lane, hstands.ingest dropped hr⟩
  | FlushThenSignal _ _ now =>
    simp only [Streams.step, ite_none_right_eq_some, some.injEq] at hs
    obtain ⟨⟨hr, hopen, ho⟩, rfl⟩ := hs
    rw [takeExecution_flushes now ho]
    refine ⟨lane, hstands.boundary now hr hopen ho (by rw [hr]; rfl) [_] _ ?_ (.inl rfl)⟩
    simp [PriorityStreamCommit.marks, PriorityStreamCommit.Ends]
  | FlushForOrdering owner keys now =>
    simp only [Streams.step, ite_none_right_eq_some, some.injEq] at hs
    obtain ⟨⟨hr, hopen, ho⟩, rfl⟩ := hs
    rw [takeExecution_flushes now ho, StreamPipeline.flushForOrdering]
    split
    · subst keys
      have hb : (StreamReader.Awaiting owner).ingest = none := rfl
      have hstands := hstands.boundary now hr hopen ho hb [] _ (by simp) (.inr ⟨rfl, rfl⟩)
      rw [append_nil] at hstands
      exact ⟨lane, hstands⟩
    · refine ⟨lane, hstands.boundary now hr hopen ho rfl [_] _ ?_ (.inl rfl)⟩
      simp [PriorityStreamCommit.marks, PriorityStreamCommit.Ends]
  | Acknowledged =>
    cases hr : state.reader with
    | Reading | Ingesting => simp [Streams.step, hr] at hs
    | Awaiting =>
      simp only [Streams.step, hr, ite_none_right_eq_some, some.injEq] at hs
      obtain ⟨ha, rfl⟩ := hs
      exact ⟨lane, hstands.acknowledge hr ha⟩
  | Commit =>
    obtain ⟨_, hcommit, rfl⟩ := map_eq_some_iff.mp hs
    exact hstands.commit hcommit hc

end Standing

end Nteract.Outputs
