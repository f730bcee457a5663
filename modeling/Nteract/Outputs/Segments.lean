import Nteract.Outputs.Terminals

namespace Nteract.Outputs

open RuntimeDoc StreamTerminals List Function

variable {Terminal : Type}

inductive StreamCall where
  | Feed (streamName : Stdio) (text : Bytes)
  | Retire (streamName : Stdio) (segment : Nat)
  | Clear
deriving DecidableEq

def StreamTerminals.perform (emulator : Emulator Terminal) (executionId : ExecutionId)
    (terminals : StreamTerminals Terminal) : StreamCall → StreamTerminals Terminal
  | .Feed streamName text => (terminals.feedChunk emulator executionId streamName text).1
  | .Retire streamName segment => terminals.retireSegment ⟨executionId, streamName, segment⟩
  | .Clear => terminals.clear executionId

-- A run of chunks on one stream, and the number of its segment.
structure StreamRun where
  streamName : Stdio
  segment : Nat
  chunks : List Bytes
deriving DecidableEq

namespace StreamRun

def key (executionId : ExecutionId) (run : StreamRun) : SegmentKey :=
  ⟨executionId, run.streamName, run.segment⟩

def extend (run : StreamRun) (text : Bytes) : StreamRun :=
  { run with chunks := run.chunks ++ [text] }

-- Runs are listed latest first.
def current (runs : List StreamRun) (streamName : Stdio) : Option Nat :=
  (runs.find? (·.streamName = streamName)).map (·.segment)

def opened (runs : List StreamRun) (streamName : Stdio) : StreamRun :=
  ⟨streamName, ((current runs streamName).map (· + 1)).getD 0, []⟩

def feed (streamName : Stdio) (text : Bytes) : List StreamRun → List StreamRun
  | [] => [(opened [] streamName).extend text]
  | run :: rest =>
    if run.streamName = streamName then run.extend text :: rest
    else (opened (run :: rest) streamName).extend text :: run :: rest

-- The runs, and the chunks oldest first, since the last clear.
def step (runs : List StreamRun) : StreamCall → List StreamRun
  | .Feed streamName text => feed streamName text runs
  | .Retire _ _ => runs
  | .Clear => []

def chunksFed (chunks : List (Stdio × Bytes)) : StreamCall → List (Stdio × Bytes)
  | .Feed streamName text => chunks ++ [(streamName, text)]
  | .Retire _ _ => chunks
  | .Clear => []

def Newer (later earlier : StreamRun) : Prop :=
  later.streamName = earlier.streamName → earlier.segment < later.segment

-- The chunks are cut wherever the stream changes, and numbers increase on each stream.
structure Splits (chunks : List (Stdio × Bytes)) (runs : List StreamRun) : Prop where
  chunks : runs.reverse.flatMap (fun run => run.chunks.map (run.streamName, ·)) = chunks
  nonempty : ∀ run ∈ runs, run.chunks ≠ []
  maximal : runs.IsChain (·.streamName ≠ ·.streamName)
  increasing : runs.Pairwise Newer

variable {runs : List StreamRun} {run : StreamRun} {chunks : List (Stdio × Bytes)}

theorem feed_cases (runs : List StreamRun) (name : Stdio) (text : Bytes) :
    (∃ run rest, runs = run :: rest ∧ run.streamName = name ∧
      feed name text runs = run.extend text :: rest) ∨
    (∀ run ∈ runs.head?, run.streamName ≠ name) ∧
      feed name text runs = (opened runs name).extend text :: runs := by
  cases runs with
  | nil => exact .inr ⟨by simp, rfl⟩
  | cons run rest =>
    by_cases he : run.streamName = name
    · exact .inl ⟨run, rest, rfl, he, if_pos he⟩
    · exact .inr ⟨by simpa using he, if_neg he⟩

theorem newer_opened (name : Stdio) (hi : runs.Pairwise Newer) :
    ∀ run ∈ runs, Newer (opened runs name) run := by
  induction runs with
  | nil => exact fun _ hr => nomatch hr
  | cons first rest ih =>
    rw [pairwise_cons] at hi
    intro run hr hn
    by_cases hf : first.streamName = name
    · simp only [opened, current, List.find?_cons_of_pos, hf, decide_true]
      rcases mem_cons.mp hr with rfl | hm
      · exact Nat.lt_succ_self _
      · exact Nat.lt_succ_of_lt (hi.1 run hm (hf.trans hn))
    · have hm : run ∈ rest := (mem_cons.mp hr).resolve_left fun he => hf (he ▸ hn.symm)
      simpa [opened, current, hf] using ih hi.2 run hm hn

theorem Splits.step (hs : Splits chunks runs) (call : StreamCall) :
    Splits (chunksFed chunks call) (step runs call) := by
  cases call with
  | Retire _ _ => exact hs
  | Clear => exact ⟨rfl, by simp [StreamRun.step], .nil, .nil⟩
  | Feed name text =>
    simp only [StreamRun.step]
    rcases feed_cases runs name text with ⟨_, _, rfl, rfl, hf⟩ | ⟨hn, hf⟩
    · rw [hf]
      have hi := pairwise_cons.mp hs.increasing
      exact ⟨by simp [chunksFed, ← hs.chunks, extend], forall_mem_cons.mpr
        ⟨by simp [extend], (forall_mem_cons.mp hs.nonempty).2⟩,
        isChain_cons.mpr (isChain_cons.mp hs.maximal),
        pairwise_cons.mpr ⟨fun other ho => hi.1 other ho, hi.2⟩⟩
    · rw [hf]
      exact ⟨by simp [chunksFed, ← hs.chunks, opened, extend],
        forall_mem_cons.mpr ⟨cons_ne_nil _ _, hs.nonempty⟩,
        isChain_cons.mpr ⟨fun other ho => (hn other ho).symm, hs.maximal⟩,
        pairwise_cons.mpr ⟨newer_opened name hs.increasing, hs.increasing⟩⟩

variable (emulator : Emulator Terminal) (executionId : ExecutionId)
  (terminals : StreamTerminals Terminal)

-- Every terminal of the execution is that of a run. The last run is open, the others with a
-- terminal are sealed.
structure Held (runs : List StreamRun) : Prop where
  last : terminals.lastStream executionId = runs.head?.map (·.streamName)
  numbers : terminals.currentSegments executionId = current runs
  texts : ∀ key, key.executionId = executionId → ∀ terminal ∈ terminals.terminals key,
    ∃ run ∈ runs, run.key executionId = key ∧ terminal = emulator.fed run.chunks
  isOpen : ∀ run ∈ runs.head?, terminals.terminals (run.key executionId) ≠ none
  sealed : ∀ key, key.executionId = executionId → (key ∈ terminals.sealedSegments ↔
    key ∈ runs.tail.map (·.key executionId) ∧ terminals.terminals key ≠ none)

def Touches (runs : List StreamRun) (key : SegmentKey) : StreamCall → Prop
  | .Feed streamName text => key ∈ ((feed streamName text runs).head?.map (·.key executionId))
  | .Retire streamName segment =>
    key = ⟨executionId, streamName, segment⟩ ∧ key ∈ terminals.sealedSegments
  | .Clear => key.executionId = executionId

variable {emulator executionId terminals}

theorem key_notMem (executionId : ExecutionId) (hl : ∀ other ∈ runs, Newer run other) :
    run.key executionId ∉ runs.map (·.key executionId) := by
  intro hm
  obtain ⟨other, ho, he⟩ := mem_map.mp hm
  simp only [key, SegmentKey.mk.injEq, true_and] at he
  exact absurd (hl other ho he.1.symm) (by omega)

theorem Held.retire (hh : Held emulator executionId terminals runs) (hi : runs.Pairwise Newer)
    (key : SegmentKey) : Held emulator executionId (terminals.retireSegment key) runs := by
  unfold retireSegment
  split
  · next hs =>
    refine ⟨hh.last, hh.numbers, fun other ho terminal ht => ?_, fun run hr => ?_,
      fun other ho => ?_⟩
    · by_cases he : other = key
      · simp [he] at ht
      · exact hh.texts other ho terminal (by simpa [he] using ht)
    · obtain ⟨_, rfl⟩ := List.head?_eq_some_iff.mp hr
      have hk : run.key executionId ≠ key := by
        rintro rfl
        exact key_notMem executionId (pairwise_cons.mp hi).1 ((hh.sealed _ rfl).mp hs).1
      simpa [hk] using hh.isOpen run hr
    · by_cases he : other = key
      · simp [he]
      · simpa [he] using hh.sealed other ho
  · exact hh

theorem Held.clear (terminals : StreamTerminals Terminal) :
    Held emulator executionId (terminals.clear executionId) [] := by
  unfold StreamTerminals.clear
  refine ⟨by simp, by simp; rfl, fun key he terminal ht => ?_, by simp, fun key he => ?_⟩
  · simp [he] at ht
  · simp [he]

-- A chunk goes to the last of the new runs, before which are the old ones, or all but the one it
-- extends.
theorem Held.write (hh : Held emulator executionId terminals runs) (run : StreamRun)
    (hf : terminals.feedChunk emulator executionId run.streamName text = fed)
    (hp : fed.2.segment = run.segment)
    (hk : run.key executionId ∉ before.map (·.key executionId))
    (hr : ∀ other ∈ runs, other ∈ before ∨ other = run)
    (hn : ∀ name ≠ run.streamName, current runs name = current before name)
    (ht : (terminals.terminals (run.key executionId)).getD emulator.new = emulator.fed run.chunks)
    (hs : ∀ key, key.executionId = executionId → (key ∈ fed.1.sealedSegments ↔
      key ∈ before.map (·.key executionId) ∧ terminals.terminals key ≠ none)) :
    Held emulator executionId fed.1 (run.extend text :: before) ∧
    ∀ key, fed.1.terminals key ≠ terminals.terminals key → some (run.key executionId) = some key := by
  have hu := feedChunk_terminals emulator terminals executionId run.streamName text
  have hl := feedChunk_lastStream emulator terminals executionId run.streamName text
  have hc := feedChunk_currentSegments emulator terminals executionId run.streamName text executionId
  simp only [hf, hp] at hu hl hc
  change fed.1.terminals = update terminals.terminals (run.key executionId)
    (some (emulator.feed ((terminals.terminals (run.key executionId)).getD _) text)) at hu
  rw [ht, ← Emulator.fed_append] at hu
  refine ⟨⟨by simp [hl, extend], funext fun name => ?_, fun key he terminal hx => ?_,
    by simp [hu, extend, key], fun key he => ?_⟩, fun key hx => ?_⟩
  · rw [hc]
    by_cases he : name = run.streamName
    · simp [he, current, extend]
    · have hf : current (run.extend text :: before) name = current before name := by
        simp [current, extend, Ne.symm he]
      simp [he, hf, ← hn name he, hh.numbers]
  · rw [hu] at hx
    by_cases hk : key = run.key executionId
    · subst hk
      rw [update_self] at hx
      exact ⟨_, (.head _), rfl, (Option.some.inj hx).symm⟩
    · rw [update_of_ne hk] at hx
      obtain ⟨other, ho, rfl, ht⟩ := hh.texts key he terminal hx
      exact ⟨other, .tail _ ((hr other ho).resolve_right fun h => hk (h ▸ rfl)),
        rfl, ht⟩
  · rw [hs key he, hu, tail_cons]
    refine and_congr_right fun hm => ?_
    rw [update_of_ne]
    rintro rfl
    exact hk hm
  · by_contra hne
    rw [hu] at hx
    exact hx (update_of_ne (fun h => hne (congrArg some h.symm)) ..)

theorem Held.feed (hh : Held emulator executionId terminals runs) (hi : runs.Pairwise Newer)
    (name : Stdio) (text : Bytes) (hx : terminals.feedChunk emulator executionId name text = fed) :
    Held emulator executionId fed.1 (feed name text runs) ∧
    ∀ key, fed.1.terminals key ≠ terminals.terminals key →
      Touches executionId terminals runs key (.Feed name text) := by
  have hs := feedChunk_sealedSegments emulator terminals executionId name text
  have hc := feedChunk_continues emulator terminals executionId name text
  rw [hx] at hs hc
  simp only [Touches]
  rcases feed_cases runs name text with ⟨run, rest, rfl, rfl, hf⟩ | ⟨hn, hf⟩
  · have hk := key_notMem executionId (pairwise_cons.mp hi).1
    have hp := hc fun previous hp => by simpa [hh.last, eq_comm] using hp
    rw [hp] at hs
    obtain ⟨terminal, ho⟩ := Option.ne_none_iff_exists'.mp (hh.isOpen run rfl)
    obtain ⟨_, hm, he, ht⟩ := hh.texts _ rfl terminal ho
    obtain rfl := (mem_cons.mp hm).resolve_right fun h => hk (he ▸ mem_map_of_mem h)
    rw [hf]
    exact hh.write _ hx (by simp [hp, hh.numbers, current]) hk
      (fun _ ho => (mem_cons.mp ho).symm) (fun _ ho => by simp [current, Ne.symm ho])
      (by simp [ho, ht]) fun key he => hs ▸ hh.sealed key he
  · have hk := key_notMem executionId (newer_opened name hi)
    have ht : terminals.terminals ((opened runs name).key executionId) = none := by
      by_contra hx
      obtain ⟨terminal, hx⟩ := Option.ne_none_iff_exists'.mp hx
      obtain ⟨run, hr, he, _⟩ := hh.texts _ rfl terminal hx
      exact hk (he ▸ mem_map_of_mem hr)
    have hp : fed.2.segment = (opened runs name).segment ∧ ∀ key, key.executionId = executionId →
        (key ∈ fed.1.sealedSegments ↔
          key ∈ runs.map (·.key executionId) ∧ terminals.terminals key ≠ none) := by
      cases runs with
      | nil =>
        have hp := hc fun previous hp => by simp [hh.last] at hp
        rw [hp] at hs
        exact ⟨by simp [hp, hh.numbers, current, opened], fun key he => hs ▸ hh.sealed key he⟩
      | cons run rest =>
        have hp := feedChunk_switches emulator terminals executionId name text
          (by simp [hh.last]) (hn run rfl) (show _ = some run.segment by simp [hh.numbers, current])
        rw [hx] at hp
        rw [hp] at hs
        refine ⟨by simp [hp, hh.numbers, opened], fun key he => ?_⟩
        rw [hs, Finset.mem_insert, hh.sealed key he, map_cons, mem_cons, or_and_right]
        refine or_congr_left ⟨fun h => ⟨h, ?_⟩, And.left⟩
        subst h
        exact hh.isOpen run rfl
    rw [hf]
    exact hh.write (opened runs name) hx hp.1 hk (fun _ => .inl) (fun _ _ => rfl)
      (by rw [ht]; rfl) hp.2

theorem Held.step (hh : Held emulator executionId terminals runs) (hi : runs.Pairwise Newer)
    (call : StreamCall) :
    Held emulator executionId (terminals.perform emulator executionId call) (step runs call) ∧
    ∀ key, (terminals.perform emulator executionId call).terminals key ≠ terminals.terminals key →
      Touches executionId terminals runs key call := by
  cases call with
  | Feed name text => exact hh.feed hi name text rfl
  | Retire name segment =>
    refine ⟨hh.retire hi _, fun key hx => ?_⟩
    simp only [perform, retireSegment] at hx
    split at hx
    · next hs =>
      by_cases he : key = ⟨executionId, name, segment⟩
      · exact ⟨he, he ▸ hs⟩
      · exact absurd (update_of_ne he ..) hx
    · exact absurd rfl hx
  | Clear =>
    refine ⟨.clear terminals, fun key hx => ?_⟩
    by_contra he
    exact hx (if_neg he)

-- A run that another one follows stays as it is until the next clear.
theorem tail_suffix_step (runs : List StreamRun) (hc : call ≠ .Clear) :
    runs.tail <:+ (step runs call).tail := by
  cases call with
  | Feed name text =>
    rw [StreamRun.step]
    rcases feed_cases runs name text with ⟨_, _, rfl, _, hf⟩ | ⟨_, hf⟩
    · rw [hf]
      exact suffix_refl _
    · rw [hf]
      exact tail_suffix _
  | Retire _ _ => exact suffix_refl _
  | Clear => exact absurd rfl hc

theorem tail_suffix_foldl (runs : List StreamRun) {calls : List StreamCall}
    (hc : .Clear ∉ calls) : runs.tail <:+ (calls.foldl step runs).tail := by
  induction calls generalizing runs with
  | nil => exact suffix_refl _
  | cons call calls ih =>
    rw [mem_cons, not_or] at hc
    exact (tail_suffix_step runs (Ne.symm hc.1)).trans (ih _ hc.2)

theorem segments_are_runs (emulator : Emulator Terminal) (executionId : ExecutionId)
    (calls : List StreamCall) :
    let terminals := calls.foldl (perform emulator executionId) .new
    let runs := calls.foldl step []
    Splits (calls.foldl chunksFed []) runs ∧ Held emulator executionId terminals runs ∧
    (∀ call key, (terminals.perform emulator executionId call).terminals key ≠
      terminals.terminals key → Touches executionId terminals runs key call) ∧
    ∀ later, StreamCall.Clear ∉ later → runs.tail <:+ (List.foldl step runs later).tail := by
  intro terminals runs
  have hr : Splits (calls.foldl chunksFed []) runs ∧ Held emulator executionId terminals runs := by
    subst terminals runs
    induction calls using reverseRecOn with
    | nil => exact ⟨⟨rfl, by simp, .nil, .nil⟩, rfl, rfl, by simp [new], by simp, by simp [new]⟩
    | append_singleton calls call ih =>
      simp only [foldl_append, foldl_cons, foldl_nil]
      exact ⟨ih.1.step call, (ih.2.step ih.1.increasing call).1⟩
  exact ⟨hr.1, hr.2, fun call => (hr.2.step hr.1.increasing call).2, fun _ => tail_suffix_foldl runs⟩

end StreamRun

end Nteract.Outputs
