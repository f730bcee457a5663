import Nteract.RuntimeDoc

namespace Nteract.Outputs

open RuntimeDoc List

inductive Stdio
  | Stdout
  | Stderr
deriving DecidableEq

inductive OutputType
  | DisplayData
  | ExecuteResult
  | Error
deriving DecidableEq

-- A display_data, execute_result or error message. `data` is all of its payload.
structure NbformatOutput (Data : Type) where
  outputType : OutputType
  displayId : Option String
  data : Data
deriving DecidableEq

inductive OutputManifest (Data : Type)
  | Stream (name : Stdio) (text : String)
  | Ordinary (output : NbformatOutput Data)
deriving DecidableEq

structure OutputEntry (Data : Type) where
  executionId : ExecutionId
  outputId : Nat
  seq : Nat
  manifest : OutputManifest Data
deriving DecidableEq

structure StreamOutputState where
  outputId : Nat
  blobHash : String
deriving DecidableEq

variable {Data : Type}

namespace OutputManifest

-- The text field of a manifest, as its blob hash or its inline content.
def textId (contentRef : String → String) : OutputManifest Data → Option String
  | .Stream _ text => some (contentRef text)
  | .Ordinary _ => none

def displayId : OutputManifest Data → Option String
  | .Stream _ _ => none
  | .Ordinary output => output.displayId

end OutputManifest

-- In the order of creation. `minted` counts the output ids handed out; the source draws them at
-- random.
structure OutputMap (Data : Type) where
  entries : List (OutputEntry Data)
  minted : Nat
  distinct : (entries.map (·.outputId)).Nodup
  known : ∀ entry ∈ entries, entry.outputId < minted
  ordered : entries.Pairwise fun first second =>
    first.executionId = second.executionId → first.seq < second.seq

namespace OutputMap

def empty : OutputMap Data := ⟨[], 0, nodup_nil, by simp, .nil⟩

variable (doc : OutputMap Data) (executionId : ExecutionId)

-- output_entries_sorted
def outputsOf : List (OutputEntry Data) :=
  doc.entries.filter (·.executionId = executionId)

def getOutputs : List (OutputManifest Data) :=
  (doc.outputsOf executionId).map (·.manifest)

-- The two fields of the output order cache.
def latestSeq : Option Nat :=
  (doc.outputsOf executionId).getLast?.map (·.seq)

def nextOutputSeq : Nat :=
  match doc.latestSeq executionId with
  | some seq => seq + 1
  | none => 0

def getOutputEntry (outputId : Nat) : Option (OutputEntry Data) :=
  (doc.outputsOf executionId).find? (·.outputId = outputId)

variable {doc executionId}

theorem mem_outputsOf :
    entry ∈ doc.outputsOf executionId ↔ entry ∈ doc.entries ∧ entry.executionId = executionId := by
  simp [outputsOf]

theorem outputsOf_sublist (doc : OutputMap Data) (executionId : ExecutionId) :
    (doc.outputsOf executionId).Sublist doc.entries :=
  filter_sublist

theorem seq_lt_nextOutputSeq (hm : entry ∈ doc.outputsOf executionId) :
    entry.seq < doc.nextOutputSeq executionId := by
  have ho := doc.ordered.sublist (doc.outputsOf_sublist executionId)
  have hown : ∀ other ∈ doc.outputsOf executionId, other.executionId = executionId :=
    fun other hm => (mem_outputsOf.mp hm).2
  unfold nextOutputSeq latestSeq
  rcases eq_nil_or_concat (doc.outputsOf executionId) with hn | ⟨_, last, hlast⟩
  · simp [hn] at hm
  · rw [concat_eq_append] at hlast
    rw [hlast] at hm ho hown ⊢
    simp only [List.getLast?_append_of_ne_nil, ne_eq, cons_ne_self, not_false_eq_true,
      List.getLast?_singleton, Option.map_some]
    rw [pairwise_append] at ho
    rcases mem_append.mp hm with hi | hl
    · have hlt := ho.2.2 entry hi last (by simp) ((hown entry hm).trans (hown last (by simp)).symm)
      omega
    · obtain rfl := mem_singleton.mp hl
      omega

-- append_output with a manifest whose output id is new.
def appendOutput (doc : OutputMap Data) (executionId : ExecutionId)
    (manifest : OutputManifest Data) : OutputMap Data where
  entries := doc.entries ++ [⟨executionId, doc.minted, doc.nextOutputSeq executionId, manifest⟩]
  minted := doc.minted + 1
  distinct := by
    rw [map_append, nodup_append]
    refine ⟨doc.distinct, by simp, ?_⟩
    intro first hf second hs he
    obtain ⟨entry, hm, rfl⟩ := mem_map.mp hf
    obtain rfl : second = doc.minted := by simpa using hs
    exact absurd he (Nat.ne_of_lt (doc.known entry hm))
  known := by
    intro entry hm
    rcases mem_append.mp hm with hm | hm
    · exact Nat.lt_succ_of_lt (doc.known entry hm)
    · obtain rfl := mem_singleton.mp hm
      exact Nat.lt_succ_self _
  ordered := by
    rw [pairwise_append]
    refine ⟨doc.ordered, pairwise_singleton _ _, ?_⟩
    intro first hf second hs he
    obtain rfl := mem_singleton.mp hs
    exact seq_lt_nextOutputSeq (mem_outputsOf.mpr ⟨hf, he⟩)

-- append_outputs
def appendOutputs (doc : OutputMap Data) (executionId : ExecutionId)
    (manifests : List (OutputManifest Data)) : OutputMap Data :=
  manifests.foldl (fun doc manifest => doc.appendOutput executionId manifest) doc

section Patch

variable (executionId : ExecutionId) (outputId : Nat) (manifest : OutputManifest Data)
  (entry : OutputEntry Data)

def patch : OutputEntry Data :=
  if entry.executionId = executionId ∧ entry.outputId = outputId then
    { entry with manifest := manifest }
  else
    entry

theorem patch_executionId :
    (patch executionId outputId manifest entry).executionId = entry.executionId := by
  unfold patch
  split <;> rfl

theorem patch_outputId : (patch executionId outputId manifest entry).outputId = entry.outputId := by
  unfold patch
  split <;> rfl

theorem patch_seq : (patch executionId outputId manifest entry).seq = entry.seq := by
  unfold patch
  split <;> rfl

end Patch

def replaceOutput (doc : OutputMap Data) (executionId : ExecutionId) (outputId : Nat)
    (manifest : OutputManifest Data) : OutputMap Data where
  entries := doc.entries.map (patch executionId outputId manifest)
  minted := doc.minted
  distinct := by
    rw [map_map]
    simpa only [Function.comp_def, patch_outputId] using doc.distinct
  known := by
    intro entry hm
    obtain ⟨before, hb, rfl⟩ := mem_map.mp hm
    rw [patch_outputId]
    exact doc.known before hb
  ordered := by
    rw [pairwise_map]
    simpa only [patch_executionId, patch_seq] using doc.ordered

-- The last output is replaced if it still holds what was written for the stream. Anything else
-- appends.
def upsertStreamOutput (contentRef : String → String) (doc : OutputMap Data)
    (executionId : ExecutionId) (manifest : OutputManifest Data)
    (knownState : Option StreamOutputState) : OutputMap Data × Bool × Nat :=
  let appended := (doc.appendOutput executionId manifest, false, doc.minted)
  match knownState with
  | none => appended
  | some state =>
    match doc.getOutputEntry executionId state.outputId with
    | none => appended
    | some entry =>
      if doc.latestSeq executionId = some entry.seq ∧
          entry.manifest.textId contentRef = some state.blobHash then
        (doc.replaceOutput executionId state.outputId manifest, true, state.outputId)
      else
        appended

theorem outputsOf_appendOutput (doc : OutputMap Data) (executionId other : ExecutionId)
    (manifest : OutputManifest Data) :
    (doc.appendOutput executionId manifest).outputsOf other =
      doc.outputsOf other ++ if executionId = other then
        [⟨executionId, doc.minted, doc.nextOutputSeq executionId, manifest⟩] else [] := by
  unfold outputsOf appendOutput
  by_cases he : executionId = other <;> simp [he]

theorem outputsOf_replaceOutput (doc : OutputMap Data) (executionId other : ExecutionId)
    (outputId : Nat) (manifest : OutputManifest Data) :
    (doc.replaceOutput executionId outputId manifest).outputsOf other =
      (doc.outputsOf other).map (patch executionId outputId manifest) := by
  unfold outputsOf replaceOutput
  rw [filter_map]
  simp [Function.comp_def, patch_executionId]

theorem outputId_ne_of_append (ho : doc.outputsOf executionId = before ++ [last]) :
    ∀ entry ∈ before, entry.outputId ≠ last.outputId := by
  have hd := doc.distinct.sublist ((doc.outputsOf_sublist executionId).map (·.outputId))
  rw [ho, map_append, nodup_append] at hd
  intro entry hm
  exact hd.2.2 _ (mem_map_of_mem hm) _ (by simp)

theorem map_patch_eq_self {entries : List (OutputEntry Data)}
    (hne : ∀ entry ∈ entries, ¬(entry.executionId = executionId ∧ entry.outputId = outputId)) :
    entries.map (patch executionId outputId manifest) = entries := by
  have hp : ∀ entry ∈ entries, patch executionId outputId manifest entry = id entry :=
    fun entry hm => if_neg (hne entry hm)
  rw [map_congr_left hp, map_id]

theorem upsertStreamOutput_last (contentRef : String → String) (state : StreamOutputState)
    (manifest : OutputManifest Data) (ho : doc.outputsOf executionId = before ++ [last])
    (hid : state.outputId = last.outputId)
    (hh : last.manifest.textId contentRef = some state.blobHash) :
    (doc.upsertStreamOutput contentRef executionId manifest (some state)).1.outputsOf executionId =
        before ++ [{ last with manifest := manifest }] ∧
      (doc.upsertStreamOutput contentRef executionId manifest (some state)).2.2 =
        last.outputId := by
  have hne := outputId_ne_of_append ho
  have hown : last.executionId = executionId :=
    (mem_outputsOf.mp (ho ▸ mem_append_right before (.head _))).2
  have hf : doc.getOutputEntry executionId state.outputId = some last := by
    unfold getOutputEntry
    rw [ho, hid, List.find?_append, List.find?_eq_none.mpr (by simpa using hne)]
    simp
  have hl : doc.latestSeq executionId = some last.seq := by simp [latestSeq, ho]
  unfold upsertStreamOutput
  simp only [hf, hl, hh, and_self, if_true]
  refine ⟨?_, hid⟩
  rw [outputsOf_replaceOutput, ho, map_append, hid, map_patch_eq_self fun entry hm h => hne entry hm h.2]
  simp [patch, hown]

theorem upsertStreamOutput_other (ho : executionId ≠ other) (manifest : OutputManifest Data)
    (knownState : Option StreamOutputState) :
    (doc.upsertStreamOutput contentRef executionId manifest knownState).1.outputsOf other =
      doc.outputsOf other := by
  have ha : (doc.appendOutput executionId manifest).outputsOf other = doc.outputsOf other := by
    rw [outputsOf_appendOutput, if_neg ho, append_nil]
  have hr : ∀ outputId, (doc.replaceOutput executionId outputId manifest).outputsOf other =
      doc.outputsOf other := by
    intro outputId
    rw [outputsOf_replaceOutput]
    exact map_patch_eq_self fun entry hm h => ho (h.1.symm.trans (mem_outputsOf.mp hm).2)
  unfold upsertStreamOutput
  match knownState with
  | none => exact ha
  | some state =>
    match hfind : doc.getOutputEntry executionId state.outputId with
    | none => simpa only [hfind] using ha
    | some entry =>
      simp only [hfind]
      split
      · exact hr _
      · exact ha

end OutputMap

end Nteract.Outputs
