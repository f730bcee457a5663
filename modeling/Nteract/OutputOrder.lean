import Nteract.Lib.Effect
import Nteract.RuntimeDoc

namespace Nteract.OutputOrder

open Lib Lib.Effect Relation List Option Function Table
open RuntimeDoc (ExecutionId ExecutionState QueueState U64_MAX)

-- An empty output id counts as none. `text` is the blob hash or the inline content.
structure Manifest where
  outputId : Option String
  text : Option String
  displayId : Option String
deriving DecidableEq

structure OutputEntry where
  seq : Option UInt64
  manifest : Option Manifest
deriving DecidableEq

abbrev Outputs := Table String OutputEntry

-- An outputs map that is not there reads as an empty one.
structure Execution where
  state : ExecutionState
  outputs : Outputs
deriving DecidableEq

-- The outputs under a display id. No id contains the separator of the keys.
abbrev DisplayIndex := Finset (String × ExecutionId × String)

structure Document where
  executions : Table ExecutionId Execution
  queue : QueueState
  displayIndex : DisplayIndex
deriving DecidableEq

def Document.outputMap (content : Document) (executionId : ExecutionId) : Option Outputs :=
  (content.executions.find executionId).map Execution.outputs

def Document.outputs (content : Document) (executionId : ExecutionId) : Outputs :=
  (content.outputMap executionId).getD .empty

def Document.withOutputs (executionId : ExecutionId) (outputs : Outputs) (content : Document) :
    Document :=
  { content with
    executions := content.executions.adjust executionId ({ · with outputs := outputs }) }

structure OutputOrderCacheEntry where
  nextSeq : UInt64
  latestSeq : Option UInt64
deriving DecidableEq

structure RuntimeStateDoc where
  doc : Document
  outputOrderCache : ExecutionId → Option OutputOrderCacheEntry

inductive RuntimeStateError
  | MissingOutputId
  | InvalidRecoveredExecution

abbrev RuntimeM := EStateM RuntimeStateError RuntimeStateDoc

def outputBefore (first second : String × UInt64 × Manifest) : Prop :=
  toLex (first.2.1.toNat, first.1) ≤ toLex (second.2.1.toNat, second.1)

instance : DecidableRel outputBefore := fun _ _ => inferInstanceAs (Decidable (toLex _ ≤ toLex _))
instance : Std.Total outputBefore := ⟨fun _ _ => le_total _ _⟩
instance : IsTrans _ outputBefore := ⟨fun _ _ _ => le_trans⟩

def outputEntriesSorted (outputs : Outputs) : List (String × UInt64 × Manifest) :=
  (outputs.entries.filterMap fun (outputId, entry) => do
    return (outputId, ← entry.seq, ← entry.manifest)).insertionSort outputBefore

-- seq.saturating_add(1)
def saturatingSucc (seq : UInt64) : UInt64 := if seq.toNat < U64_MAX then seq + 1 else seq

def scanOutputOrder (outputs : Outputs) : OutputOrderCacheEntry :=
  let latest := (outputEntriesSorted outputs).getLast?.map fun entry => entry.2.1
  ⟨(latest.map saturatingSucc).getD 0, latest⟩

section Operations

def addDisplayIndexEntry (displayId : String) (executionId : ExecutionId) (outputId : String)
    (index : DisplayIndex) : DisplayIndex :=
  insert (displayId, executionId, outputId) index

def removeDisplayIndexEntry (displayId : String) (executionId : ExecutionId) (outputId : String)
    (index : DisplayIndex) : DisplayIndex :=
  index.erase (displayId, executionId, outputId)

def removeDisplayIndexEntriesForExecution (executionId : ExecutionId) (index : DisplayIndex) :
    DisplayIndex :=
  index.filter fun entry => entry.2.1 ≠ executionId

-- The entry of the manifest that is overwritten goes, that of the new one comes.
def reindex (executionId : ExecutionId) (outputId : String) (old : Option Manifest)
    (manifest : Manifest) (index : DisplayIndex) : DisplayIndex :=
  let index := match old.bind Manifest.displayId with
    | some displayId => removeDisplayIndexEntry displayId executionId outputId index
    | none => index
  match manifest.displayId with
  | some displayId => addDisplayIndexEntry displayId executionId outputId index
  | none => index

def readOutputManifest (outputs : Outputs) (outputId : String) : Option Manifest :=
  (outputs.find outputId).bind OutputEntry.manifest

def writeOutputManifest (outputId : String) (manifest : Manifest) (outputs : Outputs) : Outputs :=
  outputs.adjust outputId ({ · with manifest := some manifest })

def createOutput (outputId : String) (seq : UInt64) (manifest : Manifest) (outputs : Outputs) :
    Outputs :=
  writeOutputManifest outputId manifest (outputs.set outputId ⟨some seq, none⟩)

variable (executionId : ExecutionId)

-- The loop of append_outputs: the next number, the last one given out, the map and the index.
def appendLoop : List (Manifest × String) → UInt64 → Option UInt64 → Outputs → DisplayIndex →
    UInt64 × Option UInt64 × Outputs × DisplayIndex
  | [], nextSeq, latestCreatedSeq, outputs, index => (nextSeq, latestCreatedSeq, outputs, index)
  | (manifest, outputId) :: items, nextSeq, latestCreatedSeq, outputs, index =>
    let index := reindex executionId outputId (readOutputManifest outputs outputId) manifest index
    if (outputs.find outputId).isSome then
      appendLoop items nextSeq latestCreatedSeq (writeOutputManifest outputId manifest outputs) index
    else
      appendLoop items (saturatingSucc nextSeq) (some nextSeq)
        (createOutput outputId nextSeq manifest outputs) index

-- What was written before a manifest without an id stays.
def setLoop : List Manifest → UInt64 → Option UInt64 → Outputs → DisplayIndex →
    Except RuntimeStateError OutputOrderCacheEntry × Outputs × DisplayIndex
  | [], next, latestSeq, outputs, index => (.ok ⟨next, latestSeq⟩, outputs, index)
  | manifest :: manifests, next, _, outputs, index =>
    match manifest.outputId with
    | none => (.error .MissingOutputId, outputs, index)
    | some outputId =>
      setLoop manifests (saturatingSucc next) (some next)
        (createOutput outputId next manifest outputs)
        (reindex executionId outputId none manifest index)

variable (outputs : Outputs) (manifest : Manifest)

def ensureOutputMap : RuntimeM (Option Outputs) := do
  return (← get).doc.outputMap executionId

def putOutputs : RuntimeM Unit := modify fun doc =>
  { doc with doc := doc.doc.withOutputs executionId outputs }

def putDisplayIndex (index : DisplayIndex) : RuntimeM Unit := modify fun doc =>
  { doc with doc.displayIndex := index }

def writeOutputOrderCache (entry : OutputOrderCacheEntry) : RuntimeM Unit := modify fun doc =>
  { doc with outputOrderCache := update doc.outputOrderCache executionId (some entry) }

def outputOrder : RuntimeM OutputOrderCacheEntry := do
  match (← get).outputOrderCache executionId with
  | some entry => return entry
  | none =>
    writeOutputOrderCache executionId (scanOutputOrder outputs)
    return scanOutputOrder outputs

def outputIsLatest (entry : OutputEntry) : RuntimeM Bool := do
  match entry.seq with
  | none => return false
  | some seq => return (← outputOrder executionId outputs).latestSeq = some seq

def appendOutput : RuntimeM String := do
  match manifest.outputId, ← ensureOutputMap executionId with
  | none, _ => throw .MissingOutputId
  | some outputId, none => return outputId
  | some outputId, some outputs =>
    if (outputs.find outputId).isSome then
      putOutputs executionId (writeOutputManifest outputId manifest outputs)
    else
      let seq := (← outputOrder executionId outputs).nextSeq
      putOutputs executionId (createOutput outputId seq manifest outputs)
      writeOutputOrderCache executionId ⟨saturatingSucc seq, some seq⟩
    putDisplayIndex (reindex executionId outputId (readOutputManifest outputs outputId) manifest
      (← get).doc.displayIndex)
    return outputId

def appendOutputs (manifests : List Manifest) : RuntimeM (List String) := do
  match manifests.mapM Manifest.outputId, ← ensureOutputMap executionId with
  | none, _ => throw .MissingOutputId
  | some outputIds, none => return outputIds
  | some outputIds, some outputs =>
    let order ← outputOrder executionId outputs
    let (nextSeq, latestCreatedSeq, outputs, index) := appendLoop executionId
      (manifests.zip outputIds) order.nextSeq none outputs (← get).doc.displayIndex
    putOutputs executionId outputs
    putDisplayIndex index
    if latestCreatedSeq.isSome then
      writeOutputOrderCache executionId ⟨nextSeq, latestCreatedSeq⟩
    return outputIds

def setOutputs (manifests : List Manifest) : RuntimeM Bool := do
  match ← ensureOutputMap executionId with
  | none => return false
  | some _ =>
    let (order, outputs, index) := setLoop executionId manifests 0 none .empty
      (removeDisplayIndexEntriesForExecution executionId (← get).doc.displayIndex)
    putOutputs executionId outputs
    putDisplayIndex index
    writeOutputOrderCache executionId (← ofExcept order)
    return true

def replaceOutput (outputId : String) : RuntimeM Bool := do
  match (← ensureOutputMap executionId).filter fun outputs => (outputs.find outputId).isSome with
  | none => return false
  | some outputs =>
    putOutputs executionId (writeOutputManifest outputId manifest outputs)
    putDisplayIndex (reindex executionId outputId (readOutputManifest outputs outputId) manifest
      (← get).doc.displayIndex)
    return true

-- A terminal execution that is not there is written with its outputs.
def restoreTerminalExecution (state : ExecutionState) (manifests : List Manifest) :
    RuntimeM Bool := do
  if state.status ≠ .Done ∧ state.status ≠ .Error then
    throw .InvalidRecoveredExecution
  if manifests.any fun manifest => manifest.outputId.isNone then
    throw .MissingOutputId
  match (← get).doc.executions.find executionId with
  | some _ => return false
  | none =>
    modify fun doc =>
      { doc with doc.executions := doc.doc.executions.add executionId ⟨state, .empty⟩ }
    let _ ← setOutputs executionId manifests
    return true

-- `knownState` is an output id with the blob hash of its text.
def upsertStreamOutput (knownState : Option (String × String)) : RuntimeM (Bool × String) := do
  match manifest.outputId, ← ensureOutputMap executionId with
  | none, _ => throw .MissingOutputId
  | some manifestOutputId, none => return (false, manifestOutputId)
  | some _, some outputs =>
    match knownState.bind fun state => (outputs.find state.1).map (state, ·) with
    | none => return (false, ← appendOutput executionId manifest)
    | some ((outputId, blobHash), entry) =>
      if (← outputIsLatest executionId outputs entry) ∧
          entry.manifest.bind Manifest.text = some blobHash then
        -- the stream keeps the id of the output that it continues
        let existingId := entry.manifest.bind Manifest.outputId
        let _ ← replaceOutput executionId
          { manifest with outputId := existingId <|> manifest.outputId } outputId
        return (true, outputId)
      else
        return (false, ← appendOutput executionId manifest)

def removeExecution (doc : RuntimeStateDoc) (executionId : ExecutionId) : RuntimeStateDoc :=
  if (doc.doc.executions.find executionId).isNone then doc
  else
    { doc with
      doc.executions := doc.doc.executions.remove executionId
      doc.displayIndex := removeDisplayIndexEntriesForExecution executionId doc.doc.displayIndex
      outputOrderCache := update doc.outputOrderCache executionId none }

def removeExecutions (executionIds : List ExecutionId) (doc : RuntimeStateDoc) : RuntimeStateDoc :=
  executionIds.foldl removeExecution doc

-- The oldest executions go that the caller does not keep, not queued and not running.
def trimExecutionsPreserving (max : Nat) (preserve : List ExecutionId) (doc : RuntimeStateDoc) :
    RuntimeStateDoc :=
  let keys := doc.doc.executions.entries.map fun entry => (entry.1, entry.2.state)
  let unprotected := (keys.insertionSort RuntimeDoc.RuntimeStateDoc.queuedBefore).filter
    fun key => key.1 ∉ preserve ++ doc.doc.queue.executing.toList ++ doc.doc.queue.queued ∧
      key.2.status ≠ .Queued ∧ key.2.status ≠ .Running
  removeExecutions ((unprotected.take (keys.length - max)).map Prod.fst) doc

end Operations

def after {α : Type} (action : RuntimeM α) (doc : RuntimeStateDoc) : RuntimeStateDoc :=
  match action doc with
  | .ok _ doc | .error _ doc => doc

-- One operation. In an orderly one, all that set_outputs is given has an output id.
inductive Writes (orderly : Prop) (doc : RuntimeStateDoc) : RuntimeStateDoc → Prop
  | appendOutput (executionId : ExecutionId) (manifest : Manifest) :
      Writes orderly doc (after (appendOutput executionId manifest) doc)
  | appendOutputs (executionId : ExecutionId) (manifests : List Manifest) :
      Writes orderly doc (after (appendOutputs executionId manifests) doc)
  | setOutputs (executionId : ExecutionId) (manifests : List Manifest) :
      (orderly → ∀ manifest ∈ manifests, manifest.outputId.isSome) →
      Writes orderly doc (after (setOutputs executionId manifests) doc)
  | upsertStreamOutput (executionId : ExecutionId) (manifest : Manifest)
      (knownState : Option (String × String)) :
      Writes orderly doc (after (upsertStreamOutput executionId manifest knownState) doc)
  | replaceOutput (executionId : ExecutionId) (manifest : Manifest) (outputId : String) :
      Writes orderly doc (after (replaceOutput executionId manifest outputId) doc)
  | removeExecutions (executionIds : List ExecutionId) :
      Writes orderly doc (removeExecutions executionIds doc)
  | trimExecutionsPreserving (max : Nat) (preserve : List ExecutionId) :
      Writes orderly doc (trimExecutionsPreserving max preserve doc)

def Coherent (doc : RuntimeStateDoc) : Prop :=
  ∀ executionId entry, doc.outputOrderCache executionId = some entry →
    entry = scanOutputOrder (doc.doc.outputs executionId)

-- An entry with a number has a manifest.
def Complete (outputs : Outputs) : Prop :=
  ∀ outputId entry, outputs.find outputId = some entry → entry.seq.isSome → entry.manifest.isSome

def fromDoc (doc : Document) : RuntimeStateDoc := ⟨doc, fun _ => none⟩

-- Changes to an earlier view of a live document, plain at the current heads.
structure Integration where
  integrate : Document → Document → Document → Document
  current : ∀ live isolated, integrate live live isolated = isolated

-- A merge, a message or a panic leaves any document. A transaction that succeeds has written to the
-- view at its heads; an orderly one is at the current heads.
inductive Steps (automerge : Integration) (orderly : Prop) (doc : RuntimeStateDoc) :
    RuntimeStateDoc → Prop
  | writes {next : RuntimeStateDoc} : Writes orderly doc next → Steps automerge orderly doc next
  | same : Steps automerge orderly doc doc
  | cleared (content : Document) :
      (orderly → ∀ executionId, Complete (content.outputs executionId)) →
      Steps automerge orderly doc (fromDoc content)
  | transactAtHeads (view : Document) : (orderly → view = doc.doc) →
      ReflTransGen (Writes orderly) { doc with doc := view } isolated →
      Steps automerge orderly doc
        { isolated with doc := automerge.integrate doc.doc view isolated.doc }

section Scanned

variable {outputs : Outputs} {outputId : String} {seq : UInt64}

def Visible (outputs : Outputs) (seq : UInt64) : Prop :=
  ∃ outputId manifest, outputs.find outputId = some ⟨some seq, some manifest⟩

theorem mem_outputEntriesSorted {manifest : Manifest} :
    (outputId, seq, manifest) ∈ outputEntriesSorted outputs ↔
      outputs.find outputId = some ⟨some seq, some manifest⟩ := by
  rw [outputEntriesSorted, mem_insertionSort, find_eq_some, mem_filterMap]
  constructor
  · rintro ⟨⟨_, _ | _, _ | _⟩, hm, heq⟩ <;> cases heq
    exact hm
  · exact fun hm => ⟨_, hm, rfl⟩

theorem latestSeq_isSome (hv : Visible outputs seq) :
    ∃ latest, (scanOutputOrder outputs).latestSeq = some latest := by
  obtain ⟨_, _, hf⟩ := hv
  refine ne_none_iff_exists'.mp fun hl => ?_
  have hm := mem_outputEntriesSorted.mpr hf
  rw [List.getLast?_eq_none_iff.mp (map_eq_none_iff.mp hl)] at hm
  cases hm

theorem latestSeq_greatest (hl : (scanOutputOrder outputs).latestSeq = some seq) :
    Visible outputs seq ∧ ∀ other, Visible outputs other → other ≤ seq := by
  obtain ⟨_, hg, rfl⟩ := map_eq_some_iff.mp hl
  obtain ⟨_, hi⟩ := List.getLast?_eq_some_iff.mp hg
  have hs : (outputEntriesSorted outputs).Pairwise outputBefore :=
    pairwise_insertionSort ..
  refine ⟨⟨_, _, mem_outputEntriesSorted.mp (mem_of_getLast? hg)⟩, ?_⟩
  rintro _ ⟨_, _, hf⟩
  have hm := mem_outputEntriesSorted.mpr hf
  rw [hi] at hm hs
  rcases mem_append.mp hm with hm | hm
  · have hle := (pairwise_append.mp hs).2.2 _ hm _ (mem_singleton_self _)
    exact Prod.Lex.monotone_fst_ofLex hle
  · obtain rfl := mem_singleton.mp hm
    exact UInt64.le_refl _

theorem latestSeq_eq_some : (scanOutputOrder outputs).latestSeq = some seq ↔
    Visible outputs seq ∧ ∀ other, Visible outputs other → other ≤ seq := by
  refine ⟨latestSeq_greatest, fun ⟨hv, hm⟩ => ?_⟩
  obtain ⟨latest, hl⟩ := latestSeq_isSome hv
  obtain ⟨hlatest, hg⟩ := latestSeq_greatest hl
  rw [hl, UInt64.le_antisymm (hm latest hlatest) (hg seq hv)]

theorem scanOutputOrder_eq (hl : (scanOutputOrder outputs).latestSeq = latest) :
    scanOutputOrder outputs = ⟨(latest.map saturatingSucc).getD 0, latest⟩ := by
  rw [← hl]
  rfl

theorem le_saturatingSucc (seq : UInt64) : seq ≤ saturatingSucc seq := by
  unfold saturatingSucc
  split
  · rename_i hlt
    rw [UInt64.le_iff_toNat_le]
    simp only [U64_MAX] at hlt
    simp
    omega
  · exact UInt64.le_refl _

variable (outputs outputId) (manifest : Manifest)

theorem find_created (seq : UInt64) (other : String) :
    (createOutput outputId seq manifest outputs).find other =
      if other = outputId then some ⟨some seq, some manifest⟩ else outputs.find other := by
  rw [createOutput, writeOutputManifest, find_adjust, find_set]
  split <;> rfl

-- A new output is the latest one, also where it replaces another.
theorem scanOutputOrder_created :
    scanOutputOrder (createOutput outputId (scanOutputOrder outputs).nextSeq manifest outputs) =
      ⟨saturatingSucc (scanOutputOrder outputs).nextSeq,
        some (scanOutputOrder outputs).nextSeq⟩ := by
  refine scanOutputOrder_eq (latestSeq_eq_some.mpr
    ⟨⟨outputId, manifest, by rw [find_created, if_pos rfl]⟩, ?_⟩)
  rintro other ⟨otherId, found, hf⟩
  rw [find_created] at hf
  split at hf
  · cases hf
    exact UInt64.le_refl _
  · obtain ⟨latest, hl⟩ := latestSeq_isSome ⟨otherId, found, hf⟩
    rw [scanOutputOrder_eq hl]
    exact UInt64.le_trans ((latestSeq_greatest hl).2 other ⟨otherId, found, hf⟩)
      (le_saturatingSucc latest)

variable {outputs}

section

variable (hc : Complete outputs)
include hc

theorem complete_created (seq : UInt64) :
    Complete (createOutput outputId seq manifest outputs) := by
  intro other entry hf
  rw [find_created] at hf
  split at hf
  · cases hf
    exact fun _ => rfl
  · exact hc other entry hf

theorem complete_written :
    Complete (writeOutputManifest outputId manifest outputs) := by
  intro other entry hf
  rw [writeOutputManifest, find_adjust] at hf
  split at hf
  · obtain ⟨_, _, rfl⟩ := map_eq_some_iff.mp hf
    exact fun _ => rfl
  · exact hc other entry hf

theorem scanOutputOrder_written :
    scanOutputOrder (writeOutputManifest outputId manifest outputs) = scanOutputOrder outputs := by
  have hv : ∀ seq, Visible (writeOutputManifest outputId manifest outputs) seq ↔
      Visible outputs seq := by
    intro seq
    constructor
    · rintro ⟨other, found, hf⟩
      rw [writeOutputManifest, find_adjust] at hf
      split at hf
      · obtain ⟨⟨_, _⟩, hs, heq⟩ := map_eq_some_iff.mp hf
        cases heq
        obtain ⟨kept, rfl⟩ := isSome_iff_exists.mp (hc _ _ hs rfl)
        exact ⟨other, kept, hs⟩
      · exact ⟨other, found, hf⟩
    · rintro ⟨other, found, hf⟩
      refine ⟨other, if other = outputId then manifest else found, ?_⟩
      rw [writeOutputManifest, find_adjust, hf]
      split <;> rfl
  have hl : (scanOutputOrder (writeOutputManifest outputId manifest outputs)).latestSeq =
      (scanOutputOrder outputs).latestSeq :=
    Option.ext fun seq => by simp only [latestSeq_eq_some, hv]
  exact scanOutputOrder_eq hl

end

-- `order` is the entry that was cached before the loop.
theorem appendLoop_scanned (executionId : ExecutionId) (index : DisplayIndex)
    (items : List (Manifest × String)) (latestCreatedSeq : Option UInt64) (hc : Complete outputs)
    (hn : nextSeq = (scanOutputOrder outputs).nextSeq)
    (hs : (if latestCreatedSeq.isSome then ⟨nextSeq, latestCreatedSeq⟩ else order) =
      scanOutputOrder outputs) :
    ∃ next latest after listed,
      appendLoop executionId items nextSeq latestCreatedSeq outputs index =
        (next, latest, after, listed) ∧
      Complete after ∧
      (if latest.isSome then ⟨next, latest⟩ else order) = scanOutputOrder after := by
  induction items generalizing nextSeq latestCreatedSeq outputs index with
  | nil => exact ⟨_, _, _, _, rfl, hc, hs⟩
  | cons item _ ih =>
    obtain ⟨manifest, outputId⟩ := item
    rw [appendLoop]
    split
    · have hw := scanOutputOrder_written outputId manifest hc
      exact ih _ _ (complete_written _ _ hc) (by rw [hw, hn]) (by rw [hw, hs])
    · subst hn
      have hw := scanOutputOrder_created outputs outputId manifest
      exact ih _ _ (complete_created _ _ hc _) (by rw [hw]) hw.symm

theorem setLoop_scanned (executionId : ExecutionId) (index : DisplayIndex)
    (manifests : List Manifest) (hn : ∀ manifest ∈ manifests, manifest.outputId.isSome)
    (hc : Complete outputs)
    (hs : scanOutputOrder outputs = ⟨nextSeq, latestSeq⟩) :
    ∃ after listed, setLoop executionId manifests nextSeq latestSeq outputs index =
        (.ok (scanOutputOrder after), after, listed) ∧ Complete after := by
  induction manifests generalizing nextSeq latestSeq outputs index with
  | nil => exact ⟨outputs, index, by rw [hs]; rfl, hc⟩
  | cons manifest manifests ih =>
    rw [forall_mem_cons] at hn
    obtain ⟨outputId, hid⟩ := isSome_iff_exists.mp hn.1
    have hcreated := scanOutputOrder_created outputs outputId manifest
    rw [hs] at hcreated
    simp only [setLoop, hid]
    exact ih _ hn.2 (complete_created _ _ hc _) hcreated

end Scanned

structure Sound (doc : RuntimeStateDoc) : Prop where
  coherent : Coherent doc
  complete : ∀ executionId, Complete (doc.doc.outputs executionId)

section Sound

variable {doc next : RuntimeStateDoc} {executionId : ExecutionId} {outputs before : Outputs}

-- All operations change what is stored of one execution.
theorem Sound.changed (hs : Sound doc)
    (ho : ∀ other, other ≠ executionId → next.doc.outputs other = doc.doc.outputs other ∧
      next.outputOrderCache other = doc.outputOrderCache other)
    (hc : Complete (next.doc.outputs executionId))
    (hcache : ∀ entry, next.outputOrderCache executionId = some entry →
      entry = scanOutputOrder (next.doc.outputs executionId)) : Sound next := by
  constructor
  · intro other entry he
    by_cases heq : other = executionId
    · subst heq
      exact hcache entry he
    · rw [(ho other heq).2] at he
      rw [(ho other heq).1]
      exact hs.coherent other entry he
  · intro other
    by_cases heq : other = executionId
    · exact heq ▸ hc
    · exact (ho other heq).1 ▸ hs.complete other

theorem complete_empty : Complete .empty := nofun

theorem outputs_eq {content : Document} (hf : content.outputMap executionId = some outputs) :
    content.outputs executionId = outputs := by
  rw [Document.outputs, hf, getD_some]

theorem outputMap_withOutputs (content : Document) (other : ExecutionId) :
    (content.withOutputs executionId outputs).outputMap other =
      if other = executionId then (content.outputMap executionId).map fun _ => outputs
      else content.outputMap other := by
  rw [Document.outputMap, Document.withOutputs, find_adjust]
  split
  · subst_vars
    rw [Document.outputMap, Option.map_map, Option.map_map]
    rfl
  · rfl

theorem outputs_withOutputs {content : Document} (hf : content.outputMap executionId = some before)
    (outputs : Outputs) (other : ExecutionId) : (content.withOutputs executionId outputs).outputs other =
      if other = executionId then outputs else content.outputs other := by
  rw [Document.outputs, outputMap_withOutputs, hf]
  split <;> rfl

section

variable (hs : Sound doc)
include hs

theorem Sound.put (hf : doc.doc.outputMap executionId = some before)
    (hc : Complete outputs)
    (hcache : ∀ entry, cache executionId = some entry → entry = scanOutputOrder outputs)
    (ho : ∀ other, other ≠ executionId → cache other = doc.outputOrderCache other) :
    Sound ⟨doc.doc.withOutputs executionId outputs, cache⟩ := by
  refine hs.changed (fun other hne => ⟨?_, ho other hne⟩) ?_ ?_
  · rw [outputs_withOutputs hf, if_neg hne]
  · rwa [outputs_withOutputs hf, if_pos rfl]
  · rwa [outputs_withOutputs hf, if_pos rfl]

theorem Sound.indexed (index : DisplayIndex) :
    Sound { doc with doc.displayIndex := index } :=
  ⟨hs.coherent, hs.complete⟩

theorem Sound.cached (hf : doc.doc.outputMap executionId = some before)
    (hc : Complete outputs) :
    Sound ⟨doc.doc.withOutputs executionId outputs,
      update doc.outputOrderCache executionId (some (scanOutputOrder outputs))⟩ := by
  refine hs.put hf hc (fun entry he => ?_) fun _ hne => update_of_ne hne ..
  cases (update_self ..).symm.trans he
  rfl

theorem Sound.written (hf : doc.doc.outputMap executionId = some outputs)
    (outputId : String) (manifest : Manifest) :
    Sound { doc with doc :=
      doc.doc.withOutputs executionId (writeOutputManifest outputId manifest outputs) } := by
  have hc : Complete outputs := outputs_eq hf ▸ hs.complete executionId
  refine hs.put hf (complete_written _ _ hc) (fun entry he => ?_) fun _ _ => rfl
  rw [scanOutputOrder_written _ _ hc, hs.coherent _ _ he, outputs_eq hf]

theorem post_outputOrder (hf : doc.doc.outputMap executionId = some outputs)
    (hok : ∀ next, Sound next → next.doc = doc.doc → next.outputOrderCache executionId = some
      (scanOutputOrder outputs) → ok (scanOutputOrder outputs) next) :
    Post (outputOrder executionId outputs) doc ok error := by
  simp only [outputOrder, post_bind, post_get]
  split
  · rename_i entry he
    have hentry := hs.coherent _ _ he
    rw [outputs_eq hf] at hentry
    subst hentry
    exact hok doc hs rfl he
  · refine hok _ (hs.changed (fun other hne => ⟨rfl, update_of_ne hne ..⟩)
      (hs.complete executionId) fun entry he => ?_) rfl (update_self ..)
    cases (update_self ..).symm.trans he
    exact (congrArg _ (outputs_eq hf)).symm

end

-- Also what a failing operation leaves is in the invariant.
def Keeps {α : Type} (inv : RuntimeStateDoc → Prop) (action : RuntimeM α) : Prop :=
  ∀ doc, inv doc → Post action doc (fun _ => inv) fun _ => inv

theorem Keeps.after (hk : Keeps inv action) (hi : inv doc) : inv (after action doc) := by
  have hp := hk doc hi
  unfold Post at hp
  unfold OutputOrder.after
  split <;> simp_all

variable (executionId) (manifest : Manifest)

theorem keeps_appendOutput : Keeps Sound (appendOutput executionId manifest) := by
  intro doc hs
  simp only [appendOutput, ensureOutputMap, post_bind, post_get, post_pure]
  split
  · exact hs
  · exact hs
  · rename_i outputId outputs _ hf
    split
    · exact (hs.written hf outputId manifest).indexed _
    · simp only [post_bind]
      refine post_outputOrder hs hf fun next hn hd _ => ?_
      have hc : Complete outputs := outputs_eq hf ▸ hs.complete executionId
      have hcached := hn.cached (hd ▸ hf)
        (complete_created outputId manifest hc (scanOutputOrder outputs).nextSeq)
      rw [scanOutputOrder_created] at hcached
      exact hcached.indexed _

theorem keeps_appendOutputs (manifests : List Manifest) :
    Keeps Sound (appendOutputs executionId manifests) := by
  intro doc hs
  simp only [appendOutputs, ensureOutputMap, post_bind, post_get, post_pure]
  split
  · exact hs
  · exact hs
  · rename_i outputIds outputs _ hf
    rw [post_bind]
    refine post_outputOrder hs hf fun next hn hd hcached => ?_
    have hc : Complete outputs := outputs_eq hf ▸ hs.complete executionId
    obtain ⟨_, latest, _, _, hl, ha, ho⟩ :=
      appendLoop_scanned executionId next.doc.displayIndex (manifests.zip outputIds) none hc rfl rfl
    rw [post_bind, post_get, hl]
    cases latest with
    | none =>
      refine (hn.put (hd ▸ hf) ha (fun entry he => ?_) fun _ _ => rfl).indexed _
      cases hcached.symm.trans he
      exact ho
    | some latest =>
      have hstored := hn.cached (hd ▸ hf) ha
      rw [← ho] at hstored
      exact hstored.indexed _

theorem keeps_setOutputs (hn : ∀ manifest ∈ manifests, manifest.outputId.isSome) :
    Keeps Sound (setOutputs executionId manifests) := by
  intro doc hs
  obtain ⟨_, listed, hl, hc⟩ := setLoop_scanned executionId
    (removeDisplayIndexEntriesForExecution executionId doc.doc.displayIndex) manifests hn
    complete_empty rfl
  simp only [setOutputs, ensureOutputMap, post_bind, post_get, post_pure]
  split
  · exact hs
  · rename_i outputs hf
    rw [post_bind, post_get, show setLoop executionId manifests 0 none .empty _ = _ from hl]
    exact (hs.cached hf hc).indexed listed

theorem keeps_replaceOutput (outputId : String) :
    Keeps Sound (replaceOutput executionId manifest outputId) := by
  intro doc hs
  simp only [replaceOutput, ensureOutputMap, post_bind, post_get, post_pure]
  split
  · exact hs
  · rename_i outputs hf
    exact (hs.written (filter_eq_some_iff.mp hf).1 outputId manifest).indexed _

theorem keeps_upsertStreamOutput (ha : Keeps inv (appendOutput executionId manifest))
    (hr : ∀ manifest outputId, Keeps inv (replaceOutput executionId manifest outputId))
    (ho : ∀ doc outputs, inv doc → doc.doc.outputMap executionId = some outputs → Post
      (outputOrder executionId outputs) doc (fun _ => inv) fun _ => inv)
    (knownState : Option (String × String)) :
    Keeps inv (upsertStreamOutput executionId manifest knownState) := by
  have ha : Keeps inv (return (false, ← appendOutput executionId manifest)) := by
    intro doc hi
    rw [post_bind]
    exact ha doc hi
  intro doc hi
  simp only [upsertStreamOutput, ensureOutputMap, post_bind, post_get, post_pure]
  split
  · exact hi
  · exact hi
  · rename_i outputs _ hf
    split
    · exact ha doc hi
    · rename_i outputId blobHash entry _
      have hl : Post (outputIsLatest executionId outputs entry) doc (fun _ => inv)
          fun _ => inv := by
        unfold outputIsLatest
        split
        · exact hi
        · rw [post_bind]
          exact ho doc outputs hi hf
      rw [post_bind]
      refine hl.imp (fun latest next hn => ?_) fun _ _ hn => hn
      split
      · rw [post_bind]
        exact hr _ outputId next hn
      · exact ha next hn

theorem outputs_removed (content : Document) (other : ExecutionId) :
    { content with executions := content.executions.remove executionId }.outputs other =
      if other = executionId then .empty else content.outputs other := by
  rw [Document.outputs, Document.outputMap, find_remove]
  split <;> rfl

theorem sound_removeExecution (hs : Sound doc) : Sound (removeExecution doc executionId) := by
  unfold removeExecution
  split
  · exact hs
  · refine hs.changed (fun other hne => ⟨?_, update_of_ne hne ..⟩) ?_ fun entry he => ?_
    · exact (outputs_removed executionId doc.doc other).trans (if_neg hne)
    · have hempty := outputs_removed executionId doc.doc executionId
      rw [if_pos rfl] at hempty
      exact hempty ▸ complete_empty
    · cases (update_self ..).symm.trans he

theorem sound_removeExecutions (executionIds : List ExecutionId) (hs : Sound doc) :
    Sound (removeExecutions executionIds doc) := by
  induction executionIds generalizing doc with
  | nil => exact hs
  | cons executionId _ ih => exact ih (sound_removeExecution executionId hs)

theorem Writes.sound (hw : Writes True doc next) (hs : Sound doc) : Sound next := by
  cases hw with
  | appendOutput => exact (keeps_appendOutput _ _).after hs
  | appendOutputs => exact (keeps_appendOutputs _ _).after hs
  | setOutputs _ _ hnamed => exact (keeps_setOutputs _ (hnamed trivial)).after hs
  | upsertStreamOutput =>
    exact (keeps_upsertStreamOutput _ _ (keeps_appendOutput _ _) (keeps_replaceOutput _)
      (fun _ _ hs hf => post_outputOrder hs hf fun _ hn _ _ => hn) _).after hs
  | replaceOutput => exact (keeps_replaceOutput _ _ _).after hs
  | removeExecutions => exact sound_removeExecutions _ hs
  | trimExecutionsPreserving => exact sound_removeExecutions _ hs

theorem Steps.sound (hstep : Steps automerge True doc last) (hs : Sound doc) : Sound last := by
  cases hstep with
  | writes hw => exact hw.sound hs
  | same => exact hs
  | cleared _ hc => exact ⟨nofun, hc trivial⟩
  | transactAtHeads _ hv hwrites =>
    cases hv trivial
    rw [automerge.current]
    induction hwrites with
    | refl => exact hs
    | tail _ hw ih => exact hw.sound ih

end Sound

theorem output_order_cache_coherent (automerge : Integration) {content : Document}
    {doc : RuntimeStateDoc} (hc : ∀ executionId, Complete (content.outputs executionId))
    (hrun : ReflTransGen (Steps automerge True) (fromDoc content) doc) : Coherent doc := by
  have hs : Sound doc := by
    induction hrun with
    | refl => exact ⟨nofun, hc⟩
    | tail _ hstep ih => exact hstep.sound ih
  exact hs.coherent

def storeAll (entries : List (String × OutputEntry)) (outputs : Outputs) : Outputs :=
  entries.foldl (fun outputs entry => outputs.set entry.1 entry.2) outputs

def running (entries : List (String × OutputEntry)) : Document where
  executions := empty.set "e" ⟨⟨.Running, none, none, none, none⟩, storeAll entries .empty⟩
  queue := ⟨none, []⟩
  displayIndex := ∅

def stream (outputId : String) : Manifest := ⟨some outputId, none, none⟩

-- The outputs of both sides stay.
def concurrent : Integration where
  integrate live view isolated :=
    if live = view then isolated
    else { live with executions := live.executions.mapValues fun executionId execution =>
      { execution with
        outputs := storeAll (isolated.outputs executionId).entries execution.outputs } }
  current _ _ := if_pos rfl

theorem outputs_running (executionId : ExecutionId) :
    (running []).outputs executionId = .empty := by
  rw [Document.outputs, Document.outputMap, running, find_set]
  split <;> rfl

theorem complete_running (executionId : ExecutionId) :
    Complete ((running []).outputs executionId) :=
  outputs_running executionId ▸ complete_empty

theorem output_order_cache_coherent_appended : ∃ content doc,
    (∀ executionId, Complete (content.outputs executionId)) ∧
    ReflTransGen (Steps concurrent True) (fromDoc content) doc ∧
    doc.outputOrderCache "e" = some ⟨2, some 1⟩ ∧ Coherent doc := by
  have hr : ReflTransGen (Steps concurrent True) (fromDoc (running [])) _ :=
    .single (.writes (.appendOutputs "e" [stream "a", stream "b"]))
  exact ⟨running [], _, complete_running, hr, by decide +kernel,
    output_order_cache_coherent concurrent complete_running hr⟩

-- A transaction at older heads, a manifest without an id, and an entry that has none.
theorem output_order_cache_stale :
    (∃ doc, ReflTransGen (Steps concurrent False)
        (fromDoc (running [("a", ⟨some 0, some (stream "a")⟩), ("b", ⟨some 1, some (stream "b")⟩),
          ("c", ⟨some 2, some (stream "c")⟩)])) doc ∧ ¬Coherent doc) ∧
      (∃ doc, ReflTransGen (Steps concurrent False) (fromDoc (running [])) doc ∧ ¬Coherent doc) ∧
      ∃ doc, ReflTransGen (Steps concurrent True)
        (fromDoc (running [("a", ⟨some 5, none⟩)])) doc ∧ ¬Coherent doc := by
  refine ⟨⟨_, .single (.transactAtHeads (running [("a", ⟨some 0, some (stream "a")⟩)]) nofun
      (.single (.appendOutput "e" (stream "d")))), fun h => ?_⟩,
    ⟨_, .tail (.single (.writes (.setOutputs "e" [] nofun)))
      (.writes (.setOutputs "e" [stream "a", ⟨none, none, none⟩] nofun)), fun h => ?_⟩,
    _, .tail (.single (.writes (.appendOutput "e" (stream "b"))))
      (.writes (.appendOutput "e" (stream "a"))), fun h => ?_⟩
  · exact absurd (h "e" ⟨2, some 1⟩ (by decide +kernel)) (by decide +kernel)
  · exact absurd (h "e" ⟨0, none⟩ (by decide +kernel)) (by decide +kernel)
  · exact absurd (h "e" ⟨1, some 0⟩ (by decide +kernel)) (by decide +kernel)

end Nteract.OutputOrder
