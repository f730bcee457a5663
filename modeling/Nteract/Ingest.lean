import Nteract.Lib.Table
import Nteract.NotebookDoc

namespace Nteract.Ingest

open Lib NotebookDoc

-- One cell of the external file; the assets are blob references.
structure ExternalCell (V O : Type) where
  id : String
  cellType : String
  source : String
  executionCount : String
  metadata : V
  outputs : List O
  attachments : V
  assets : V
deriving DecidableEq

-- A write to the runtime state that waits until the document lock is released.
structure DeferredExecution (O : Type) where
  syntheticEid : String
  outputs : List O
  executionCount : Option Int
deriving DecidableEq

def I64_MAX : Nat := 2 ^ 63 - 1

def parseDigits (chars : List Char) : Option Nat :=
  if chars.isEmpty || !chars.all Char.isDigit then none
  else some (chars.foldl (fun value char => 10 * value + (char.toNat - 48)) 0)

-- str::parse::<i64>
def parseI64 (text : String) : Option Int :=
  let bounded (negative : Bool) (value : Nat) : Option Int :=
    if negative then
      if value ≤ I64_MAX + 1 then some (-(value : Int)) else none
    else if value ≤ I64_MAX then some (value : Int) else none
  match text.toList with
  | '-' :: digits => (parseDigits digits).bind (bounded true)
  | '+' :: digits => (parseDigits digits).bind (bounded false)
  | digits => (parseDigits digits).bind (bounded false)

structure Ingested (P V O : Type) [LinearOrder P] where
  notebook : Notebook P V
  deferred : List (DeferredExecution O)
  clearExecutionIds : List String
  changed : Bool

variable {P V O : Type} [LinearOrder P] [DecidableEq V] [DecidableEq O]

-- `executionState` are the outputs and the count of an execution, `uuid` is a synthetic id.
structure IngestContext (P V O : Type) [LinearOrder P] where
  index : FractionalIndex P
  executionState : String → List O × Option Int
  uuid : String → String
  hasRunningKernel : Bool
  current : Notebook P V
  lastSaveSources : Table String String

def Ingested.start (notebook : Notebook P V) : Ingested P V O := ⟨notebook, [], [], false⟩

section Order

variable (current : Notebook P V) (external : List (ExternalCell V O))

def externalIds : List String := external.map ExternalCell.id

def orderChanged : Bool :=
  decide (current.getCellIds.filter (fun id => id ∈ externalIds external) ≠
    (externalIds external).filter fun id => id ∈ current.getCellIds)

-- The file was replaced as a whole.
def noCommonCells : Bool :=
  !current.getCellIds.isEmpty && !(externalIds external).isEmpty &&
    !current.getCellIds.any fun id => id ∈ externalIds external

def needsRebuild : Bool := orderChanged current external || noCommonCells current external

end Order

variable (context : IngestContext P V O)

-- An execution for the outputs and the count that the file has for a cell.
def addExecution (state : Ingested P V O) (cell : ExternalCell V O) : Ingested P V O :=
  let parsedEc := parseI64 cell.executionCount
  if !cell.outputs.isEmpty || parsedEc.isSome then
    { state with
      notebook := state.notebook.setExecutionId cell.id (some (context.uuid cell.id))
      deferred := state.deferred ++ [⟨context.uuid cell.id, cell.outputs, parsedEc⟩] }
  else
    state

def setAssetsAndAttachments (state : Ingested P V O) (cell : ExternalCell V O) : Ingested P V O :=
  { state with
    notebook := (state.notebook.setCellResolvedAssets cell.id cell.assets).setCellAttachments
      cell.id cell.attachments }

variable [EmptyCollection V] (existing : Cell P V) (state : Ingested P V O)
  (cell : ExternalCell V O)

-- A cell that is created with its source. The metadata of the file is not written.
def createCell (place : Nat) (cell : ExternalCell V O) : Ingested P V O :=
  { state with
    notebook := (state.notebook.addCell context.index place cell.id cell.cellType).updateSource
      cell.id cell.source
    changed := true }

def rebuildStep (place : Nat) (cell : ExternalCell V O) : Ingested P V O :=
  let created := createCell context state place cell
  let executed :=
    match context.hasRunningKernel, context.current.find cell.id with
    | true, some existing =>
      -- the outputs stay with the execution that is in progress
      match existing.content.executionId with
      | some executionId =>
        { created with
          notebook := created.notebook.setExecutionId cell.id (some executionId) }
      | none => created
    | _, _ => addExecution context created cell
  setAssetsAndAttachments executed cell

def isExternalChange : Bool :=
  match context.lastSaveSources.find cell.id with
  | some saved => cell.source != saved
  | none => existing.content.source != cell.source

-- current_execution_state: what the runtime state has for a cell.
def currentExecutionState : List O × Option Int :=
  match (context.current.find cell.id).bind fun existing => existing.content.executionId with
  | some executionId => context.executionState executionId
  | none => ([], none)

-- The outputs and the count of an existing cell, compared with those of its execution.
def updateExecution : Ingested P V O :=
  let executionId := (state.notebook.find cell.id).bind fun live => live.content.executionId
  let stored := currentExecutionState context cell
  if stored.1 ≠ cell.outputs ∨ stored.2 ≠ parseI64 cell.executionCount then
    if !cell.outputs.isEmpty || (parseI64 cell.executionCount).isSome then
      { addExecution context state cell with changed := true }
    else if executionId.isSome then
      { state with clearExecutionIds := state.clearExecutionIds ++ [cell.id], changed := true }
    else
      state
  else
    state

def mergeSource : Ingested P V O :=
  if isExternalChange context existing cell then
    { state with notebook := state.notebook.updateSource cell.id cell.source, changed := true }
  else
    state

def updateAssets : Ingested P V O :=
  if existing.content.resolvedAssets ≠ cell.assets then
    { state with
      notebook := state.notebook.setCellResolvedAssets cell.id cell.assets
      changed := true }
  else
    state

def updateAttachments : Ingested P V O :=
  if existing.content.attachments ≠ cell.attachments then
    { state with
      notebook := state.notebook.setCellAttachments cell.id cell.attachments
      changed := true }
  else
    state

-- The type and the metadata of an existing cell are left as they are.
def updateStep : Ingested P V O :=
  let sourced := mergeSource context existing state cell
  let executed :=
    if context.hasRunningKernel then sourced else updateExecution context sourced cell
  updateAttachments existing (updateAssets existing executed cell) cell

def ingestStep (place : Nat) (cell : ExternalCell V O) : Ingested P V O :=
  match context.current.find cell.id with
  | some existing => updateStep context existing state cell
  | none =>
    setAssetsAndAttachments (addExecution context (createCell context state place cell) cell) cell

def forCells (step : Ingested P V O → Nat → ExternalCell V O → Ingested P V O) :
    Ingested P V O → Nat → List (ExternalCell V O) → Ingested P V O
  | state, _, [] => state
  | state, place, cell :: cells => forCells step (step state place cell) (place + 1) cells

def deleteCells (notebook : Notebook P V) (ids : List String) : Notebook P V :=
  ids.foldl (fun notebook id => notebook.deleteCell id) notebook

variable (external : List (ExternalCell V O))

-- Only cells of the last save count as deleted from the file.
def cellsToDelete : List String :=
  if context.lastSaveSources.entries.isEmpty then []
  else
    context.current.getCellIds.filter fun id =>
      id ∉ externalIds external ∧ (context.lastSaveSources.find id).isSome

def clearExecutions (notebook : Notebook P V) (ids : List String) : Notebook P V :=
  ids.foldl (fun notebook id => notebook.setExecutionId id none) notebook

def rebuildCells : Ingested P V O :=
  forCells (rebuildStep context)
    (.start (deleteCells context.current context.current.getCellIds)) 0 external

def updateCells : Ingested P V O :=
  let removed := cellsToDelete context external
  let started : Ingested P V O :=
    ⟨deleteCells context.current removed, [], [], !removed.isEmpty⟩
  let done := forCells (ingestStep context) started 0 external
  { done with notebook := clearExecutions done.notebook done.clearExecutionIds }

-- The transaction of apply_ipynb_changes_inner on the cells.
def applyIpynbCells : Ingested P V O :=
  if needsRebuild context.current external then rebuildCells context external
  else updateCells context external

end Nteract.Ingest
