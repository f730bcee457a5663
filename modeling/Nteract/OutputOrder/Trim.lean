import Nteract.OutputOrder

namespace Nteract.OutputOrder

open Lib
open List hiding count
open RuntimeDoc (ExecutionId ExecutionState U64_MAX)
open RuntimeDoc.RuntimeStateDoc (queuedBefore)

theorem queuedBefore_iff : queuedBefore first second ↔
    toLex (first.2.seq.getD U64_MAX, first.1) ≤ toLex (second.2.seq.getD U64_MAX, second.1) := by
  rw [Prod.Lex.toLex_le_toLex]
  rfl

instance : Std.Total queuedBefore :=
  ⟨fun _ _ => by simpa only [queuedBefore_iff] using le_total _ _⟩

instance : IsTrans _ queuedBefore :=
  ⟨fun _ _ _ => by simpa only [queuedBefore_iff] using le_trans⟩

def Document.states (content : Document) : List (ExecutionId × ExecutionState) :=
  content.executions.entries.map fun entry => (entry.1, entry.2.state)

-- Not kept by the caller, not in the queue, and neither queued nor running.
def Unprotected (preserve : List ExecutionId) (content : Document)
    (entry : ExecutionId × ExecutionState) : Prop :=
  entry.1 ∉ preserve ++ content.queue.executing.toList ++ content.queue.queued ∧
    entry.2.status ≠ .Queued ∧ entry.2.status ≠ .Running

instance (preserve : List ExecutionId) (content : Document) :
    DecidablePred (Unprotected preserve content) := fun _ => inferInstanceAs (Decidable (_ ∧ _))

theorem find_removeExecution (doc : RuntimeStateDoc) (executionId other : ExecutionId) :
    (removeExecution doc executionId).doc.executions.find other =
      if other = executionId then none else doc.doc.executions.find other := by
  unfold removeExecution
  split
  · rename_i hn
    split
    · subst_vars
      exact Option.isNone_iff_eq_none.mp hn
    · rfl
  · exact Table.find_remove ..

theorem find_removeExecutions (executionIds : List ExecutionId) (doc : RuntimeStateDoc)
    (other : ExecutionId) : (removeExecutions executionIds doc).doc.executions.find other =
      if other ∈ executionIds then none else doc.doc.executions.find other := by
  induction executionIds generalizing doc with
  | nil => rfl
  | cons executionId executionIds ih =>
    refine (ih (removeExecution doc executionId)).trans ?_
    rw [find_removeExecution]
    by_cases he : other = executionId <;> simp [he]

theorem displayIndex_removeExecutions (hn : executionIds.Nodup)
    (ha : ∀ executionId ∈ executionIds, doc.doc.executions.find executionId ≠ none) :
    (removeExecutions executionIds doc).doc.displayIndex =
      doc.doc.displayIndex.filter fun entry => entry.2.1 ∉ executionIds := by
  induction executionIds generalizing doc with
  | nil => simp [removeExecutions]
  | cons executionId executionIds ih =>
    rw [nodup_cons] at hn
    rw [forall_mem_cons] at ha
    have hi : (removeExecution doc executionId).doc.displayIndex =
        doc.doc.displayIndex.filter fun entry => entry.2.1 ≠ executionId := by
      rw [removeExecution, if_neg (by simpa using ha.1)]
      rfl
    refine (ih hn.2 fun other hm => ?_).trans ?_
    · have hne : other ≠ executionId := fun he => hn.1 (he ▸ hm)
      rw [find_removeExecution, if_neg hne]
      exact ha.2 other hm
    · rw [hi, Finset.filter_filter]
      simp

def oldestUnprotected (preserve : List ExecutionId) (content : Document) :
    List (ExecutionId × ExecutionState) :=
  (content.states.insertionSort queuedBefore).filter (Unprotected preserve content)

theorem mem_oldestUnprotected : entry ∈ oldestUnprotected preserve content ↔
    entry ∈ content.states ∧ Unprotected preserve content entry := by
  rw [oldestUnprotected, mem_filter, mem_insertionSort, decide_eq_true_eq]

theorem nodup_oldestUnprotected (preserve : List ExecutionId) (content : Document) :
    ((oldestUnprotected preserve content).map Prod.fst).Nodup := by
  have hi : (content.states.map Prod.fst).Nodup := by
    rw [Document.states, map_map]
    exact content.executions.nodup
  have hp := (perm_insertionSort queuedBefore content.states).map Prod.fst
  exact (hp.nodup_iff.mpr hi).sublist (filter_sublist.map Prod.fst)

theorem before_of_take {entries : List (ExecutionId × ExecutionState)}
    (hs : entries.Pairwise queuedBefore) (hm : entry ∈ entries.take count) (hk : kept ∈ entries)
    (ho : kept ∉ entries.take count) : queuedBefore entry kept := by
  rw [← take_append_drop count entries] at hs hk
  exact (pairwise_append.mp hs).2.2 entry hm kept ((mem_append.mp hk).resolve_left ho)

theorem find_of_mem_states {content : Document} (hm : entry ∈ content.states) :
    content.executions.find entry.1 ≠ none := by
  obtain ⟨_, hs, rfl⟩ := mem_map.mp hm
  exact Table.mem_keys.mp (mem_map_of_mem hs)

-- The oldest unprotected executions go, as many as are too many. All others keep status and
-- outputs, and the index loses the removed outputs.
theorem trim_removes_oldest_unprotected (max : Nat) (preserve : List ExecutionId)
    (doc : RuntimeStateDoc) : ∃ removed : List (ExecutionId × ExecutionState),
    removed.length = min (doc.doc.states.length - max)
      (doc.doc.states.filter (Unprotected preserve doc.doc)).length ∧
    (removed.map Prod.fst).Nodup ∧
    (∀ entry ∈ removed, entry ∈ doc.doc.states ∧ Unprotected preserve doc.doc entry) ∧
    (∀ entry ∈ removed, ∀ kept ∈ doc.doc.states, Unprotected preserve doc.doc kept →
      kept ∉ removed → queuedBefore entry kept) ∧
    (∀ executionId, (trimExecutionsPreserving max preserve doc).doc.executions.find executionId =
      if executionId ∈ removed.map Prod.fst then none
      else doc.doc.executions.find executionId) ∧
    ∀ displayId executionId outputId, (displayId, executionId, outputId) ∈
      (trimExecutionsPreserving max preserve doc).doc.displayIndex ↔
      (displayId, executionId, outputId) ∈ doc.doc.displayIndex ∧
        executionId ∉ removed.map Prod.fst := by
  let removed := (oldestUnprotected preserve doc.doc).take (doc.doc.states.length - max)
  have ht : trimExecutionsPreserving max preserve doc =
      removeExecutions (removed.map Prod.fst) doc := rfl
  have ho : ∀ entry ∈ removed, entry ∈ doc.doc.states ∧ Unprotected preserve doc.doc entry :=
    fun entry hm => mem_oldestUnprotected.mp (mem_of_mem_take hm)
  have hn : (removed.map Prod.fst).Nodup :=
    (nodup_oldestUnprotected preserve doc.doc).sublist ((take_sublist ..).map Prod.fst)
  refine ⟨removed, ?_, hn, ho, ?_, fun executionId => ?_, fun displayId executionId _ => ?_⟩
  · have hp := (perm_insertionSort queuedBefore doc.doc.states).filter
      (Unprotected preserve doc.doc)
    rw [length_take, oldestUnprotected, hp.length_eq]
  · intro entry hm kept hk hu hout
    have hs := (pairwise_insertionSort queuedBefore doc.doc.states).filter
      (Unprotected preserve doc.doc)
    exact before_of_take hs hm (mem_oldestUnprotected.mpr ⟨hk, hu⟩) hout
  · rw [ht, find_removeExecutions]
  · have ha : ∀ executionId ∈ removed.map Prod.fst,
        doc.doc.executions.find executionId ≠ none := by
      intro executionId hm
      obtain ⟨entry, he, rfl⟩ := mem_map.mp hm
      exact find_of_mem_states (ho entry he).1
    rw [ht, displayIndex_removeExecutions hn ha, Finset.mem_filter]

end Nteract.OutputOrder
