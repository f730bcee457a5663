import Nteract.OutputOrder

namespace Nteract.OutputOrder

open Lib Lib.Effect
open RuntimeDoc (ExecutionId ExecutionState)

def shown (outputs : Outputs) (outputId : String) : Option String :=
  (readOutputManifest outputs outputId).bind Manifest.displayId

-- An output is listed under the display id it carries and no other.
def Exact (content : Document) : Prop :=
  ∀ displayId executionId outputId, (displayId, executionId, outputId) ∈ content.displayIndex ↔
    shown (content.outputs executionId) outputId = some displayId

inductive Operation
  | AppendOutput (executionId : ExecutionId) (manifest : Manifest)
  | AppendOutputs (executionId : ExecutionId) (manifests : List Manifest)
  | SetOutputs (executionId : ExecutionId) (manifests : List Manifest)
  | UpsertStreamOutput (executionId : ExecutionId) (manifest : Manifest)
      (knownState : Option (String × String))
  | ReplaceOutput (executionId : ExecutionId) (outputId : String) (manifest : Manifest)
  | RemoveExecutions (executionIds : List ExecutionId)
  | RestoreTerminalExecution (executionId : ExecutionId) (state : ExecutionState)
      (manifests : List Manifest)
  | TrimExecutionsPreserving (max : Nat) (preserve : List ExecutionId)

def perform (doc : RuntimeStateDoc) : Operation → RuntimeStateDoc
  | .AppendOutput executionId manifest => after (appendOutput executionId manifest) doc
  | .AppendOutputs executionId manifests => after (appendOutputs executionId manifests) doc
  | .SetOutputs executionId manifests => after (setOutputs executionId manifests) doc
  | .UpsertStreamOutput executionId manifest knownState =>
    after (upsertStreamOutput executionId manifest knownState) doc
  | .ReplaceOutput executionId outputId manifest =>
    after (replaceOutput executionId manifest outputId) doc
  | .RemoveExecutions executionIds => removeExecutions executionIds doc
  | .RestoreTerminalExecution executionId state manifests =>
    after (restoreTerminalExecution executionId state manifests) doc
  | .TrimExecutionsPreserving max preserve => trimExecutionsPreserving max preserve doc

-- What replaces all outputs of an execution names none of them twice.
def Operation.Distinct : Operation → Prop
  | .SetOutputs _ manifests | .RestoreTerminalExecution _ _ manifests =>
    (manifests.filterMap Manifest.outputId).Nodup
  | _ => True

-- The index lists `outputs` for one execution and `base` for the others.
def Lists (executionId : ExecutionId) (base : DisplayIndex) (outputs : Outputs)
    (index : DisplayIndex) : Prop :=
  ∀ displayId other outputId, (displayId, other, outputId) ∈ index ↔
    if other = executionId then shown outputs outputId = some displayId
    else (displayId, other, outputId) ∈ base

theorem shown_created (outputs : Outputs) (outputId : String) (seq : UInt64) (manifest : Manifest)
    (other : String) : shown (createOutput outputId seq manifest outputs) other =
      if other = outputId then manifest.displayId else shown outputs other := by
  rw [shown, readOutputManifest, find_created]
  split <;> rfl

theorem shown_written (hs : (outputs.find outputId).isSome) (manifest : Manifest)
    (other : String) : shown (writeOutputManifest outputId manifest outputs) other =
      if other = outputId then manifest.displayId else shown outputs other := by
  rw [shown, readOutputManifest, writeOutputManifest, Table.find_adjust]
  split
  · obtain ⟨_, he⟩ := Option.isSome_iff_exists.mp hs
    subst_vars
    rw [he]
    rfl
  · rfl

theorem mem_reindex : entry ∈ reindex executionId outputId old manifest index ↔
    (∃ displayId, manifest.displayId = some displayId ∧
      entry = (displayId, executionId, outputId)) ∨
    entry ∈ index ∧ ∀ displayId, old.bind Manifest.displayId = some displayId →
      entry ≠ (displayId, executionId, outputId) := by
  unfold reindex
  cases manifest.displayId <;> cases old.bind Manifest.displayId <;>
    simp [addDisplayIndexEntry, removeDisplayIndexEntry, and_comm]

theorem Lists.reindexed (hl : Lists executionId base outputs index)
    (hold : old.bind Manifest.displayId = shown outputs outputId)
    (hn : ∀ other, shown next other =
      if other = outputId then manifest.displayId else shown outputs other) :
    Lists executionId base next (reindex executionId outputId old manifest index) := by
  intro displayId other otherId
  rw [mem_reindex, hl, hold, hn]
  by_cases he : other = executionId
  · by_cases ho : otherId = outputId
    · subst he ho
      simp
    · simp [ho]
  · simp [he]

theorem appendLoop_lists (items : List (Manifest × String)) (nextSeq : UInt64)
    (latestCreatedSeq : Option UInt64) (hl : Lists executionId base outputs index) :
    Lists executionId base
      (appendLoop executionId items nextSeq latestCreatedSeq outputs index).2.2.1
      (appendLoop executionId items nextSeq latestCreatedSeq outputs index).2.2.2 := by
  induction items generalizing nextSeq latestCreatedSeq outputs index with
  | nil => exact hl
  | cons item items ih =>
    rw [appendLoop]
    split
    · rename_i hs
      exact ih _ _ (hl.reindexed rfl (shown_written hs item.1))
    · exact ih _ _ (hl.reindexed rfl (shown_created outputs item.2 nextSeq item.1))

theorem setLoop_lists (manifests : List Manifest) (next : UInt64) (latestSeq : Option UInt64)
    (hd : (manifests.filterMap Manifest.outputId).Nodup)
    (hf : ∀ outputId ∈ manifests.filterMap Manifest.outputId, outputs.find outputId = none)
    (hl : Lists executionId base outputs index) :
    Lists executionId base (setLoop executionId manifests next latestSeq outputs index).2.1
      (setLoop executionId manifests next latestSeq outputs index).2.2 := by
  induction manifests generalizing next latestSeq outputs index with
  | nil => exact hl
  | cons manifest manifests ih =>
    rw [setLoop]
    cases hid : manifest.outputId with
    | none => exact hl
    | some outputId =>
      rw [List.filterMap_cons_some hid] at hd hf
      rw [List.nodup_cons] at hd
      rw [List.forall_mem_cons] at hf
      refine ih _ _ hd.2 (fun later hm => ?_)
        (hl.reindexed ?_ (shown_created outputs outputId next manifest))
      · have hne : later ≠ outputId := fun he => hd.1 (he ▸ hm)
        rw [find_created, if_neg hne, hf.2 later hm]
      · rw [shown, readOutputManifest, hf.1]
        rfl

theorem lists_cleared (executionId : ExecutionId) (base : DisplayIndex) :
    Lists executionId base .empty (removeDisplayIndexEntriesForExecution executionId base) := by
  intro displayId other outputId
  by_cases he : other = executionId
  · simp [he, removeDisplayIndexEntriesForExecution, shown, readOutputManifest]
  · simp [he, removeDisplayIndexEntriesForExecution]

theorem Exact.lists (he : Exact content) (hf : content.outputMap executionId = some outputs) :
    Lists executionId content.displayIndex outputs content.displayIndex := by
  intro displayId other outputId
  split
  · subst_vars
    rw [he, outputs_eq hf]
  · rfl

theorem Lists.exact (he : Exact content)
    (ho : ∀ other, next.outputs other = if other = executionId then outputs else content.outputs
      other) (hl : Lists executionId content.displayIndex outputs next.displayIndex) : Exact next := by
  intro displayId other outputId
  rw [hl, ho]
  split
  · rfl
  · exact he displayId other outputId

theorem Lists.put (he : Exact content) (hf : content.outputMap executionId = some before)
    (hl : Lists executionId content.displayIndex outputs index) :
    Exact { content.withOutputs executionId outputs with displayIndex := index } :=
  hl.exact he (outputs_withOutputs hf outputs)

section Runs

abbrev ExactDoc (doc : RuntimeStateDoc) : Prop := Exact doc.doc

theorem post_outputOrder_cache
    (hok : ∀ order cache, ok order { doc with outputOrderCache := cache }) :
    Post (outputOrder executionId outputs) doc ok error := by
  simp only [outputOrder, post_bind, post_get]
  split
  · exact hok _ doc.outputOrderCache
  · exact hok _ _

variable (executionId : ExecutionId) (manifest : Manifest)

theorem exact_appendOutput : Keeps ExactDoc (appendOutput executionId manifest) := by
  intro doc he
  simp only [appendOutput, ensureOutputMap, post_bind, post_get, post_pure]
  split
  · exact he
  · exact he
  · rename_i outputId outputs _ hf
    split
    · rename_i hs
      exact ((he.lists hf).reindexed rfl (shown_written hs manifest)).put he hf
    · simp only [post_bind]
      refine post_outputOrder_cache fun order _ => ?_
      exact ((he.lists hf).reindexed rfl
        (shown_created outputs outputId order.nextSeq manifest)).put he hf

theorem exact_appendOutputs (manifests : List Manifest) :
    Keeps ExactDoc (appendOutputs executionId manifests) := by
  intro doc he
  simp only [appendOutputs, ensureOutputMap, post_bind, post_get, post_pure]
  split
  · exact he
  · exact he
  · rename_i outputIds outputs _ hf
    rw [post_bind]
    refine post_outputOrder_cache fun order _ => ?_
    have hl := appendLoop_lists (manifests.zip outputIds) order.nextSeq none (he.lists hf)
    have hexact := hl.put he hf
    simp only [post_bind, post_get]
    split <;> exact hexact

theorem exact_setOutputs (hd : (manifests.filterMap Manifest.outputId).Nodup) :
    Keeps ExactDoc (setOutputs executionId manifests) := by
  intro doc he
  simp only [setOutputs, ensureOutputMap, post_bind, post_get, post_pure]
  split
  · exact he
  · rename_i hf
    have hl := setLoop_lists manifests 0 none hd (fun _ _ => rfl)
      (lists_cleared executionId doc.doc.displayIndex)
    have hexact := hl.put he hf
    simp only [post_bind, post_ofExcept]
    exact ⟨fun _ _ => hexact, fun _ _ => hexact⟩

theorem exact_replaceOutput (outputId : String) :
    Keeps ExactDoc (replaceOutput executionId manifest outputId) := by
  intro doc he
  simp only [replaceOutput, ensureOutputMap, post_bind, post_get, post_pure]
  split
  · exact he
  · rename_i outputs hf
    obtain ⟨hf, hs⟩ := Option.filter_eq_some_iff.mp hf
    exact ((he.lists hf).reindexed rfl (shown_written hs manifest)).put he hf

theorem outputs_added (content : Document) (hn : content.executions.find executionId = none)
    (state : ExecutionState) (other : ExecutionId) :
    { content with executions := content.executions.add executionId ⟨state, .empty⟩ }.outputs other =
      content.outputs other := by
  rw [Document.outputs, Document.outputMap, Table.find_add, Document.outputs, Document.outputMap]
  split
  · subst_vars
    rw [hn]
    rfl
  · rfl

theorem exact_restoreTerminalExecution (state : ExecutionState)
    (hd : (manifests.filterMap Manifest.outputId).Nodup) :
    Keeps ExactDoc (restoreTerminalExecution executionId state manifests) := by
  intro doc he
  simp only [restoreTerminalExecution, post_bind, post_get, post_ite]
  refine ⟨fun _ => he, fun _ => ⟨fun _ => he, fun _ => ?_⟩⟩
  split
  · exact he
  · rename_i hn
    simp only [post_bind]
    refine exact_setOutputs executionId hd _ fun displayId other outputId => ?_
    rw [outputs_added executionId doc.doc hn]
    exact he displayId other outputId

theorem exact_removeExecution (he : Exact doc.doc) :
    Exact (removeExecution doc executionId).doc := by
  unfold removeExecution
  split
  · exact he
  · exact (lists_cleared executionId doc.doc.displayIndex).exact he
      (outputs_removed executionId doc.doc)

theorem exact_removeExecutions (executionIds : List ExecutionId) (he : Exact doc.doc) :
    Exact (removeExecutions executionIds doc).doc := by
  induction executionIds generalizing doc with
  | nil => exact he
  | cons executionId _ ih => exact ih (exact_removeExecution executionId he)

theorem exact_perform (he : Exact doc.doc) (hd : operation.Distinct) :
    Exact (perform doc operation).doc := by
  cases operation with
  | AppendOutput => exact (exact_appendOutput _ _).after he
  | AppendOutputs => exact (exact_appendOutputs _ _).after he
  | SetOutputs => exact (exact_setOutputs _ hd).after he
  | UpsertStreamOutput =>
    exact (keeps_upsertStreamOutput _ _ (exact_appendOutput _ _) (exact_replaceOutput _)
      (fun _ _ he _ => post_outputOrder_cache fun _ _ => he) _).after he
  | ReplaceOutput => exact (exact_replaceOutput _ _ _).after he
  | RemoveExecutions => exact exact_removeExecutions _ he
  | RestoreTerminalExecution => exact (exact_restoreTerminalExecution _ _ hd).after he
  | TrimExecutionsPreserving => exact exact_removeExecutions _ he

-- From a document whose index is exact, every run of operations keeps it so.
theorem display_index_exact {first : RuntimeStateDoc} {operations : List Operation}
    (he : Exact first.doc) (hd : ∀ operation ∈ operations, operation.Distinct) :
    Exact (operations.foldl perform first).doc := by
  induction operations generalizing first with
  | nil => exact he
  | cons operation _ ih =>
    rw [List.forall_mem_cons] at hd
    exact ih (exact_perform he hd.1) hd.2

-- A call that meets a manifest without an id leaves everything as it was.
def Spares {α : Type} (action : RuntimeM α) : Prop :=
  ∀ doc, Post action doc (fun _ _ => True) fun error next => error = .MissingOutputId → next = doc

theorem spares_appendOutput (manifest : Manifest) : Spares (appendOutput executionId manifest) := by
  intro doc
  simp only [appendOutput, ensureOutputMap, post_bind, post_get, post_pure]
  split
  · exact fun _ => rfl
  · trivial
  · split
    · trivial
    · rw [post_bind]
      exact post_outputOrder_cache fun _ _ => trivial

theorem spares_appendOutputs (manifests : List Manifest) :
    Spares (appendOutputs executionId manifests) := by
  intro doc
  simp only [appendOutputs, ensureOutputMap, post_bind, post_get, post_pure]
  split
  · exact fun _ => rfl
  · trivial
  · rw [post_bind]
    refine post_outputOrder_cache fun _ _ => ?_
    simp only [post_bind, post_get]
    split <;> trivial

theorem setOutputs_succeeds (hn : ∀ manifest ∈ manifests, manifest.outputId.isSome)
    (doc : RuntimeStateDoc) :
    Post (setOutputs executionId manifests) doc (fun _ _ => True) fun _ _ => False := by
  obtain ⟨_, _, hl, -⟩ := setLoop_scanned executionId
    (removeDisplayIndexEntriesForExecution executionId doc.doc.displayIndex) manifests hn
    complete_empty rfl
  simp only [setOutputs, ensureOutputMap, post_bind, post_get, post_pure]
  split
  · trivial
  · rw [post_bind, post_get, show setLoop executionId manifests 0 none .empty _ = _ from hl]
    trivial

theorem spares_restoreTerminalExecution (state : ExecutionState) (manifests : List Manifest) :
    Spares (restoreTerminalExecution executionId state manifests) := by
  intro doc
  simp only [restoreTerminalExecution, post_bind, post_get, post_ite, post_throw]
  refine ⟨fun _ _ => trivial, fun _ => ⟨fun _ _ => trivial, fun hn => ?_⟩⟩
  rw [List.any_eq_true] at hn
  split
  · trivial
  · simp only [post_bind]
    refine (setOutputs_succeeds executionId (fun manifest hm => ?_) _).imp
      (fun _ _ h => h) fun _ _ h => h.elim
    rw [Option.isSome_iff_ne_none]
    exact fun hnone => hn ⟨manifest, hm, by rw [hnone]; rfl⟩

-- The outputs of manifests with ids, numbered from `next`.
def numbered (manifests : List Manifest) (next : UInt64) (outputs : Outputs) : Outputs :=
  (manifests.foldl (fun written manifest => (saturatingSucc written.1,
    createOutput (manifest.outputId.getD "") written.1 manifest written.2)) (next, outputs)).2

-- The execution has just what the manifests before the first one without an id describe.
def Restated (manifests : List Manifest) (content : Document) : Prop :=
  let named := manifests.takeWhile fun manifest => manifest.outputId.isSome
  content.outputMap executionId = some (numbered named 0 .empty) ∧
    ∀ displayId outputId, (displayId, executionId, outputId) ∈ content.displayIndex ↔
      ∃ manifest ∈ named, manifest.displayId = some displayId ∧ manifest.outputId = some outputId

theorem setLoop_failed (next : UInt64) (latest : Option UInt64) (outputs : Outputs)
    (index : DisplayIndex) (hm : ∃ manifest ∈ manifests, manifest.outputId = none) :
    let named := manifests.takeWhile fun manifest => manifest.outputId.isSome
    ∃ listed, setLoop executionId manifests next latest outputs index =
        (.error .MissingOutputId, numbered named next outputs, listed) ∧
      ∀ displayId owner outputId, (displayId, owner, outputId) ∈ listed ↔
        (displayId, owner, outputId) ∈ index ∨ owner = executionId ∧ ∃ manifest ∈ named,
          manifest.displayId = some displayId ∧ manifest.outputId = some outputId := by
  induction manifests generalizing next latest outputs index with
  | nil => simp at hm
  | cons manifest manifests ih =>
    cases hid : manifest.outputId with
    | none => exact ⟨index, by simp [setLoop, hid, numbered], by simp [hid]⟩
    | some outputId =>
      obtain ⟨listed, hl, hi⟩ := ih (saturatingSucc next) (some next)
        (createOutput outputId next manifest outputs)
        (reindex executionId outputId none manifest index) (by simpa [hid] using hm)
      refine ⟨listed, by simp [setLoop, hid, hl, numbered], fun displayId owner other => ?_⟩
      rw [hi]
      cases hd : manifest.displayId with
      | none => simp [reindex, hd, hid]
      | some => simp [reindex, hd, hid, addDisplayIndexEntry]; grind

theorem withOutputs_self {content : Document}
    (hf : content.outputMap executionId = some outputs) :
    content.withOutputs executionId outputs = content := by
  obtain ⟨execution, hx, rfl⟩ := Option.map_eq_some_iff.mp hf
  rw [Document.withOutputs, Table.adjust_self hx rfl]

-- A failed set_outputs has changed nothing only where it wrote what was there.
theorem setOutputs_spares_iff (manifests : List Manifest) (doc : RuntimeStateDoc) :
    (∀ next, setOutputs executionId manifests doc = .error .MissingOutputId next → next = doc) ↔
      doc.doc.outputMap executionId = none ∨
        (∀ manifest ∈ manifests, manifest.outputId.isSome) ∨
        Restated executionId manifests doc.doc := by
  cases hf : doc.doc.outputMap executionId with
  | none =>
    have hp : Post (setOutputs executionId manifests) doc (fun _ _ => True) fun _ _ => False := by
      simp only [setOutputs, ensureOutputMap, post_bind, post_get, post_pure, hf]
    exact iff_of_true (fun next h => (hp.of_error h).elim) (.inl rfl)
  | some before =>
    by_cases hn : ∀ manifest ∈ manifests, manifest.outputId.isSome
    · refine iff_of_true (fun next h => ?_) (.inr (.inl hn))
      exact ((setOutputs_succeeds executionId hn doc).of_error h).elim
    · obtain ⟨listed, hl, hi⟩ := setLoop_failed executionId 0 none .empty
        (removeDisplayIndexEntriesForExecution executionId doc.doc.displayIndex) (by simpa using hn)
      unfold Restated
      generalize manifests.takeWhile (fun manifest => manifest.outputId.isSome) = named at hl hi ⊢
      have hs : setOutputs executionId manifests doc = .error .MissingOutputId
          { doc with doc := { doc.doc.withOutputs executionId (numbered named 0 .empty) with
            displayIndex := listed } } := by
        refine Post.eq_error ?_
        simp only [setOutputs, ensureOutputMap, post_bind, post_get, post_pure, hf, hl]
        exact ⟨rfl, rfl⟩
      simp only [hs, reduceCtorEq, hn, false_or, EStateM.Result.error.injEq, true_and, forall_eq']
      constructor
      · intro he
        have hdoc := congrArg RuntimeStateDoc.doc he
        refine ⟨?_, fun displayId outputId => ?_⟩
        · have ho : (doc.doc.withOutputs executionId (numbered named 0 .empty)).outputMap
              executionId = some (numbered named 0 .empty) := by
            rw [outputMap_withOutputs, if_pos rfl, hf, Option.map_some]
          exact (congrArg (Document.outputMap · executionId) hdoc.symm).trans ho
        · rw [← congrArg Document.displayIndex hdoc]
          simp [hi, removeDisplayIndexEntriesForExecution]
      · rintro ⟨ho, hd⟩
        have hlisted : listed = doc.doc.displayIndex := by
          ext ⟨displayId, owner, outputId⟩
          rw [hi]
          by_cases hown : owner = executionId
          · subst hown
            simp [hd, removeDisplayIndexEntriesForExecution]
          · simp [hown, removeDisplayIndexEntriesForExecution]
        rw [hlisted, withOutputs_self executionId ho]

theorem failed_write_changes_nothing {doc : RuntimeStateDoc} (manifest : Manifest)
    (manifests : List Manifest) (state : ExecutionState) :
    (∀ next, appendOutput executionId manifest doc = .error .MissingOutputId next → next = doc) ∧
      (∀ next, appendOutputs executionId manifests doc = .error .MissingOutputId next →
        next = doc) ∧
      (∀ next, restoreTerminalExecution executionId state manifests doc =
        .error .MissingOutputId next → next = doc) ∧
      ((∀ next, setOutputs executionId manifests doc = .error .MissingOutputId next →
          next = doc) ↔
        doc.doc.outputMap executionId = none ∨
          (∀ manifest ∈ manifests, manifest.outputId.isSome) ∨
          Restated executionId manifests doc.doc) := by
  refine ⟨fun _ h => ?_, fun _ h => ?_, fun _ h => ?_,
    setOutputs_spares_iff executionId manifests doc⟩
  · exact (spares_appendOutput executionId manifest doc).of_error h rfl
  · exact (spares_appendOutputs executionId manifests doc).of_error h rfl
  · exact (spares_restoreTerminalExecution executionId state manifests doc).of_error h rfl

end Runs

theorem exact_running : Exact (running []) := by
  intro displayId executionId outputId
  rw [outputs_running]
  simp [running, shown, readOutputManifest]

def display (outputId displayId : String) : Manifest := ⟨some outputId, none, some displayId⟩

theorem display_index_exact_updated : ∃ doc,
    doc = [Operation.AppendOutput "e" (display "a" "d1"),
      .ReplaceOutput "e" "a" (display "a" "d2")].foldl perform (fromDoc (running [])) ∧
    ("d2", "e", "a") ∈ doc.doc.displayIndex ∧ Exact doc.doc :=
  ⟨_, rfl, by decide +kernel, display_index_exact exact_running (by simp [Operation.Distinct])⟩

-- The output ends under the second display id, but is listed under the first.
theorem repeated_output_stays_listed : Exact (running []) ∧
    ¬ Exact (perform (fromDoc (running []))
      (.SetOutputs "e" [display "a" "d1", display "a" "d2"])).doc ∧
    ¬ Exact (perform (fromDoc (running [])) (.RestoreTerminalExecution "f"
      ⟨.Done, none, none, none, none⟩ [display "a" "d1", display "a" "d2"])).doc := by
  refine ⟨exact_running, fun h => ?_, fun h => ?_⟩
  · exact absurd ((h "d1" "e" "a").mp (by decide +kernel)) (by decide +kernel)
  · exact absurd ((h "d1" "f" "a").mp (by decide +kernel)) (by decide +kernel)

theorem nameless_output_refused : ∃ next,
    appendOutput "e" ⟨none, none, none⟩ (fromDoc (running [])) = .error .MissingOutputId next ∧
    next = fromDoc (running []) :=
  ⟨_, rfl, (failed_write_changes_nothing "e" ⟨none, none, none⟩ []
    ⟨.Done, none, none, none, none⟩).1 _ rfl⟩

-- The call fails after the old output has gone and the first new one has come. The cache is still
-- that of the old one.
theorem failed_set_outputs_writes : ∃ doc next,
    doc = perform (fromDoc (running [])) (.AppendOutput "e" (display "a" "d1")) ∧
    setOutputs "e" [display "b" "d2", ⟨none, none, none⟩] doc = .error .MissingOutputId next ∧
    (next.doc.outputs "e").find "a" = none ∧ ((next.doc.outputs "e").find "b").isSome ∧
    next.doc.displayIndex = {("d2", "e", "b")} ∧
    next.outputOrderCache "e" = doc.outputOrderCache "e" := by
  refine ⟨_, _, rfl, rfl, ?_⟩
  decide +kernel

end Nteract.OutputOrder
