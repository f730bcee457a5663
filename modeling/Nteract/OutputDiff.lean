import Nteract.RuntimePolicy

namespace Nteract.OutputDiff

open Lib Table
open List hiding after
open RuntimePolicy (ExecutionState)

section Differs

variable {ν : Type}

def extractOutputId (output : JsonValue ν) : Option String :=
  ((output.get "output_id").bind JsonValue.asStr).filter fun outputId => !outputId.isEmpty

abbrev Item (ν : Type) := String × JsonValue ν

abbrev Snapshot (ν : Type) := Table String (JsonValue ν)

-- The executions in the order in which the map hands them out.
abbrev Executions (ν : Type) := Table String (ExecutionState ν)

structure OutputIdDiff (ν : Type) where
  changed : List (Item ν)
  removedOutputIds : List String

-- The loop of both functions over the outputs with an id.
def forEachOutput {α : Type} (visit : α → Item ν → α) (init : α)
    (executions : Executions ν) : α :=
  executions.entries.foldl (fun acc exec => exec.2.outputs.foldl (fun acc output =>
    match extractOutputId output with
    | none => acc
    | some outputId => visit acc (outputId, output)) acc) init

variable [DecidableEq ν]

def isChanged (prev : Snapshot ν) (entry : Item ν) : Bool :=
  match prev.find entry.1 with
  | none => true
  | some output => output != entry.2

def compare (prev : Snapshot ν) (state : Snapshot ν × List (Item ν))
    (entry : Item ν) : Snapshot ν × List (Item ν) :=
  (state.1.set entry.1 entry.2, if isChanged prev entry then state.2 ++ [entry] else state.2)

def diffOutputIds (prev : Snapshot ν) (executions : Executions ν) :
    OutputIdDiff ν × Snapshot ν :=
  let (snapshot, changed) := forEachOutput (compare prev) (empty, []) executions
  (⟨changed, (prev.entries.map Prod.fst).filter fun key => (snapshot.find key).isNone⟩, snapshot)

-- The snapshot is updated while it is compared. The list holds the ids seen.
def compareInPlace (state : Snapshot ν × List String × List (Item ν))
    (entry : Item ν) : Snapshot ν × List String × List (Item ν) :=
  let (prev, seen, changed) := state
  if isChanged prev entry then
    (prev.set entry.1 entry.2, entry.1 :: seen, changed ++ [entry])
  else
    (prev, entry.1 :: seen, changed)

def diffOutputIdsInPlace (prev : Snapshot ν) (executions : Executions ν) :
    OutputIdDiff ν × Snapshot ν :=
  let (prev, seen, changed) := forEachOutput compareInPlace (prev, [], []) executions
  (⟨changed, (prev.entries.map Prod.fst).filter (· ∉ seen)⟩, prev.retain (· ∈ seen))

-- One call for each set of executions, each with the snapshot the last one left.
def along (differ : Snapshot ν → Executions ν → OutputIdDiff ν × Snapshot ν)
    (prev : Snapshot ν) : List (Executions ν) → List (OutputIdDiff ν × Snapshot ν)
  | [] => []
  | executions :: rest =>
    differ prev executions :: along differ (differ prev executions).2 rest

def apply (outputs : Snapshot ν) (diff : OutputIdDiff ν) : Snapshot ν :=
  diff.removedOutputIds.foldl (fun outputs outputId => outputs.remove outputId)
    (diff.changed.foldl (fun outputs entry => outputs.set entry.1 entry.2) outputs)

def replay (reports : List (OutputIdDiff ν × Snapshot ν)) : Snapshot ν :=
  reports.foldl (fun outputs report => apply outputs report.1) .empty

end Differs

section Agreement

variable {ν : Type}

def identified (executions : Executions ν) : List (Item ν) :=
  executions.entries.flatMap fun exec => exec.2.outputs.filterMap fun output =>
    (extractOutputId output).map (·, output)

abbrev Distinct (executions : Executions ν) : Prop := ((identified executions).map Prod.fst).Nodup

theorem forEachOutput_eq {α : Type} (visit : α → Item ν → α) (init : α)
    (executions : Executions ν) :
    forEachOutput visit init executions = (identified executions).foldl visit init := by
  rw [identified, foldl_flatMap]
  unfold forEachOutput
  congr
  funext acc exec
  rw [foldl_filterMap]
  congr
  funext acc output
  cases extractOutputId output <;> rfl

variable {prev outputs table : Snapshot ν} {items : List (Item ν)}
  {result : OutputIdDiff ν × Snapshot ν}

theorem not_mem_of_id (ho : outputId ∉ items.map Prod.fst) (output : JsonValue ν) :
    (outputId, output) ∉ items :=
  fun hm => ho (mem_map_of_mem (f := Prod.fst) hm)

theorem find_removeAll (outputIds : List String) (key : String) :
    (outputIds.foldl (fun outputs outputId => outputs.remove outputId) outputs).find key =
      if key ∈ outputIds then none else outputs.find key := by
  induction outputIds generalizing outputs with
  | nil => simp
  | cons outputId outputIds ih =>
    rw [foldl_cons, ih, find_remove]
    by_cases hk : key ∈ outputIds <;> simp [hk]

def Holds (table : Snapshot ν) (items : List (Item ν)) : Prop :=
  ∀ outputId output, table.find outputId = some output ↔ (outputId, output) ∈ items

def Overlays (table : Snapshot ν) (items : List (Item ν)) (after : Snapshot ν) :
    Prop :=
  ∀ outputId output, after.find outputId = some output ↔ (outputId, output) ∈ items ∨
    outputId ∉ items.map Prod.fst ∧ table.find outputId = some output

theorem Overlays.cons (hout : entry.1 ∉ items.map Prod.fst)
    (hm : ∀ key, middle.find key = if key = entry.1 then some entry.2 else table.find key)
    (ho : Overlays middle items after) : Overlays table (entry :: items) after := by
  obtain ⟨outputId, _⟩ := entry
  intro key output
  rw [ho, hm]
  by_cases hk : key = outputId
  · subst hk
    simp [not_mem_of_id hout, eq_comm]
  · simp [hk]

theorem overlays_set (table : Snapshot ν) (hn : (items.map Prod.fst).Nodup) :
    Overlays table items (items.foldl (fun table entry => table.set entry.1 entry.2) table) := by
  induction items generalizing table with
  | nil => simp [Overlays]
  | cons entry items ih =>
    rw [map_cons, nodup_cons] at hn
    exact .cons hn.1 (fun key => find_set ..) (ih _ hn.2)

variable [DecidableEq ν]

theorem isChanged_iff : isChanged prev entry = true ↔ prev.find entry.1 ≠ some entry.2 := by
  unfold isChanged
  cases prev.find entry.1 <;> simp

-- What a diff reports and remembers of the outputs that are there now.
structure Reports (prev : Snapshot ν) (items : List (Item ν))
    (result : OutputIdDiff ν × Snapshot ν) : Prop where
  changed : result.1.changed = items.filter (isChanged prev)
  removed : ∀ outputId, outputId ∈ result.1.removedOutputIds ↔
    prev.find outputId ≠ none ∧ outputId ∉ items.map Prod.fst
  snapshot : Holds result.2 items

theorem foldl_compare (snapshot : Snapshot ν) (changed : List (Item ν)) :
    items.foldl (compare prev) (snapshot, changed) =
      (items.foldl (fun table entry => table.set entry.1 entry.2) snapshot,
        changed ++ items.filter (isChanged prev)) := by
  induction items generalizing snapshot changed with
  | nil => simp
  | cons entry items ih =>
    rw [foldl_cons, compare, ih, filter_cons]
    split <;> simp

theorem diffOutputIds_reports (hd : Distinct executions) :
    Reports prev (identified executions) (diffOutputIds prev executions) := by
  have ho := overlays_set .empty hd
  rw [diffOutputIds, forEachOutput_eq, foldl_compare]
  refine ⟨rfl, fun outputId => ?_, fun outputId output => by simp [ho outputId output]⟩
  rw [mem_filter, Table.mem_keys, Option.isNone_iff_eq_none, Option.eq_none_iff_forall_ne_some]
  simp [ho outputId]

theorem foldl_compareInPlace (hn : (items.map Prod.fst).Nodup) (prev : Snapshot ν)
    (seen : List String) (changed : List (Item ν)) :
    ∃ after, Overlays prev items after ∧ items.foldl compareInPlace (prev, seen, changed) =
        (after, (items.map Prod.fst).reverse ++ seen, changed ++ items.filter (isChanged prev)) := by
  induction items generalizing prev seen changed with
  | nil => exact ⟨prev, by simp [Overlays], by simp⟩
  | cons entry items ih =>
    rw [map_cons, nodup_cons] at hn
    rw [foldl_cons, compareInPlace, filter_cons]
    split
    · have hm := fun key => prev.find_set entry.1 key entry.2
      -- no later item has the id of this one
      have hlater : items.filter (isChanged (prev.set entry.1 entry.2)) =
          items.filter (isChanged prev) := by
        refine filter_congr fun later hl => ?_
        have hne : later.1 ≠ entry.1 := fun he => hn.1 (he ▸ mem_map_of_mem hl)
        rw [isChanged, hm, if_neg hne, isChanged]
      obtain ⟨after, ho, hf⟩ := ih hn.2 (prev.set entry.1 entry.2) (entry.1 :: seen)
        (changed ++ [entry])
      exact ⟨after, ho.cons hn.1 hm, by simp [hf, hlater]⟩
    · rename_i hc
      rw [isChanged_iff, not_not] at hc
      obtain ⟨after, ho, hf⟩ := ih hn.2 prev (entry.1 :: seen) changed
      refine ⟨after, ho.cons hn.1 fun key => ?_, by simp [hf]⟩
      split
      · rename_i he
        rw [he, hc]
      · rfl

theorem diffOutputIdsInPlace_reports (hd : Distinct executions) :
    Reports prev (identified executions) (diffOutputIdsInPlace prev executions) := by
  obtain ⟨_, ho, hl⟩ := foldl_compareInPlace hd prev [] []
  rw [diffOutputIdsInPlace, forEachOutput_eq, hl]
  refine ⟨rfl, fun outputId => ?_, fun outputId output => ?_⟩
  · simp only [append_nil, mem_reverse, mem_filter, Table.mem_keys,
      decide_eq_true_eq, and_congr_left_iff, Option.ne_none_iff_exists', ho outputId]
    intro hout
    simp [not_mem_of_id hout]
  · rw [find_retain]
    by_cases hm : outputId ∈ (identified executions).map Prod.fst
    · simp [hm, ho outputId output]
    · simp [not_mem_of_id hm]

theorem apply_holds (hn : (items.map Prod.fst).Nodup)
    (hs : ∀ key, outputs.find key = prev.find key) (hr : Reports prev items result) :
    Holds (apply outputs result.1) items := by
  intro key output
  have ho := overlays_set outputs (hn.sublist
    ((filter_sublist (p := isChanged prev)).map Prod.fst)) key output
  rw [apply, find_removeAll, hr.changed]
  by_cases hm : key ∈ items.map Prod.fst
  · rw [if_neg fun h => ((hr.removed key).mp h).2 hm, ho, hs]
    obtain ⟨⟨key, current⟩, hcurrent, rfl⟩ := mem_map.mp hm
    have hone : ∀ found, (key, found) ∈ items ↔ current = found := fun found =>
      ⟨fun hf => Option.some.inj ((lookup_eq_some_iff hn).mpr hcurrent ▸
        (lookup_eq_some_iff hn).mpr hf), fun he => he ▸ hcurrent⟩
    by_cases hc : prev.find key = some current
    · simp [hone, isChanged_iff, hc]
    · simp [hone, isChanged_iff, hc]
      rintro rfl
      exact hc
  · by_cases hp : prev.find key = none
    · simp [hp, ho, hs, not_mem_of_id hm]
    · simp [hr.removed, hp, not_mem_of_id hm]

def Agree (first second : OutputIdDiff ν × Snapshot ν) : Prop :=
  first.1.changed = second.1.changed ∧
    (∀ outputId, outputId ∈ first.1.removedOutputIds ↔ outputId ∈ second.1.removedOutputIds) ∧
    ∀ outputId, first.2.find outputId = second.2.find outputId

theorem Reports.agree (hs : ∀ key, prev.find key = second.find key)
    (hr : Reports prev items result) (ho : Reports second items other) : Agree result other := by
  refine ⟨?_, fun outputId => ?_, fun outputId => Option.ext fun output => ?_⟩
  · have hsame : isChanged prev = isChanged second := by
      funext entry
      rw [isChanged, hs, isChanged]
    rw [hr.changed, ho.changed, hsame]
  · rw [hr.removed, ho.removed, hs]
  · rw [hr.snapshot, ho.snapshot]

theorem along_agree (hs : ∀ key, first.find key = second.find key)
    {snapshots : List (Executions ν)} (hd : ∀ executions ∈ snapshots, Distinct executions) :
    Forall₂ Agree (along diffOutputIdsInPlace first snapshots)
      (along diffOutputIds second snapshots) := by
  induction snapshots generalizing first second with
  | nil => exact .nil
  | cons executions _ ih =>
    rw [forall_mem_cons] at hd
    have ha := (diffOutputIdsInPlace_reports hd.1).agree hs (diffOutputIds_reports hd.1)
    exact .cons ha (ih ha.2.2 hd.2)

theorem along_replays (hd : ∀ executions ∈ snapshots, Distinct executions)
    (hs : ∀ key, outputs.find key = prev.find key) (hp : Holds prev last) :
    Holds ((along diffOutputIdsInPlace prev snapshots).foldl
        (fun outputs report => apply outputs report.1) outputs)
      ((snapshots.getLast?.map identified).getD last) := by
  induction snapshots generalizing outputs prev last with
  | nil => exact fun outputId output => (hs outputId).symm ▸ hp outputId output
  | cons executions rest ih =>
    rw [forall_mem_cons] at hd
    have hr : Reports prev _ _ := diffOutputIdsInPlace_reports hd.1
    have ha := apply_holds hd.1 hs hr
    have hl : ((executions :: rest).getLast?.map identified).getD last =
        (rest.getLast?.map identified).getD (identified executions) := by
      rw [List.getLast?_cons]
      cases rest.getLast? <;> rfl
    rw [hl]
    refine ih hd.2 (fun key => Option.ext fun output => ?_) hr.snapshot
    rw [ha, hr.snapshot]

-- The two differs report and remember the same, and the reports rebuild the outputs.
theorem differs_agree_and_replay {last : Executions ν}
    (hd : ∀ executions ∈ snapshots, Distinct executions) (hl : snapshots.getLast? = some last) :
    Forall₂ Agree (along diffOutputIdsInPlace .empty snapshots)
        (along diffOutputIds .empty snapshots) ∧
      Holds (replay (along diffOutputIdsInPlace .empty snapshots)) (identified last) := by
  refine ⟨along_agree (fun _ => rfl) hd, ?_⟩
  have he : Holds (.empty : Snapshot ν) [] := fun _ _ => by simp
  have hlast : Holds (replay _) _ := along_replays hd (fun _ => rfl) he
  rwa [hl] at hlast

end Agreement

def textOutput (outputId text : String) : JsonValue Nat :=
  .Object [("output_id", .Str outputId), ("text", .Str text)]

def showing (outputs : List (JsonValue Nat)) : Executions Nat :=
  empty.set "e" ⟨"running", none, none, outputs, none, none, none, none⟩

-- One output changes and another one goes.
def UPDATED : List (Executions Nat) :=
  [showing [textOutput "a" "1", textOutput "b" "1"], showing [textOutput "a" "2"]]

theorem update_and_removal_replayed :
    Holds (replay (along diffOutputIdsInPlace .empty UPDATED)) [("a", textOutput "a" "2")] := by
  have hd : ∀ executions ∈ UPDATED, Distinct executions := by decide +kernel
  exact (differs_agree_and_replay hd rfl).2

end Nteract.OutputDiff
