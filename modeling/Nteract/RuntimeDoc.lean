import Nteract.Lib.Table

namespace Nteract.RuntimeDoc

open Lib Table

abbrev ExecutionId := String

inductive RuntimeStateWriteScope
  | Viewer
  | Editor
  | RuntimePeer
  | Owner
deriving DecidableEq

def RuntimeStateWriteScope.asStr : RuntimeStateWriteScope → String
  | .Viewer => "viewer"
  | .Editor => "editor"
  | .RuntimePeer => "runtime_peer"
  | .Owner => "owner"

inductive ExecutionStatus
  | Queued
  | Running
  | Done
  | Error
  | Cancelled
deriving DecidableEq

-- One entry of the executions map. An absent `seq` sorts last.
structure ExecutionState where
  status : ExecutionStatus
  success : Option Bool
  source : Option String
  cellId : Option String
  seq : Option Nat
deriving DecidableEq

structure QueueState where
  executing : Option ExecutionId
  queued : List ExecutionId
deriving DecidableEq

structure RuntimeStateDoc where
  executions : Table ExecutionId ExecutionState
  queue : QueueState
deriving DecidableEq

def U64_MAX : Nat := 2 ^ 64 - 1

namespace RuntimeStateDoc

def new : RuntimeStateDoc := ⟨empty, ⟨none, []⟩⟩

def getExecution (doc : RuntimeStateDoc) (executionId : ExecutionId) : Option ExecutionState :=
  doc.executions.find executionId

def setQueue (executing : Option ExecutionId) (queued : List ExecutionId) (doc : RuntimeStateDoc) :
    RuntimeStateDoc :=
  if doc.queue.executing = executing && doc.queue.queued = queued then
    doc
  else
    { doc with queue := ⟨executing, queued⟩ }

section Writes

variable (executionId : ExecutionId) (doc : RuntimeStateDoc)

def createExecution : RuntimeStateDoc :=
  { doc with executions := doc.executions.add executionId ⟨.Queued, none, none, none, none⟩ }

def setExecutionRunning : RuntimeStateDoc :=
  { doc with
    executions := doc.executions.adjust executionId fun entry =>
      if entry.status = .Running then entry else { entry with status := .Running } }

def setExecutionDone (success : Bool) (doc : RuntimeStateDoc) : RuntimeStateDoc :=
  { doc with
    executions := doc.executions.adjust executionId fun entry =>
      { entry with status := if success then .Done else .Error, success := some success } }

-- The success flag is left as it is.
def setExecutionCancelled : RuntimeStateDoc :=
  { doc with
    executions := doc.executions.adjust executionId fun entry =>
      { entry with status := .Cancelled } }

def abortEntry (entry : ExecutionState) : ExecutionState :=
  match entry.status with
  | .Running => { entry with status := .Error, success := some false }
  | .Queued => { entry with status := .Cancelled }
  | _ => entry

def abortInflightExecutions : RuntimeStateDoc :=
  { doc with executions := doc.executions.mapValues fun _ => abortEntry }

-- Earlier sequence numbers first; entries with the same number in the order of their ids.
def queuedBefore (first second : ExecutionId × ExecutionState) : Prop :=
  first.2.seq.getD U64_MAX < second.2.seq.getD U64_MAX ∨
    first.2.seq.getD U64_MAX = second.2.seq.getD U64_MAX ∧ first.1 ≤ second.1

instance : DecidableRel queuedBefore := fun first second => by
  unfold queuedBefore
  infer_instance

def getQueuedExecutions : List (ExecutionId × ExecutionState) :=
  (doc.executions.entries.filter fun entry => entry.2.status = .Queued).insertionSort queuedBefore

end Writes

variable {doc : RuntimeStateDoc}

theorem mem_getQueuedExecutions : (executionId, entry) ∈ doc.getQueuedExecutions ↔
      doc.getExecution executionId = some entry ∧ entry.status = .Queued := by
  unfold getQueuedExecutions getExecution
  rw [List.mem_insertionSort, find_eq_some]
  simp

theorem nodup_getQueuedExecutions (doc : RuntimeStateDoc) :
    (doc.getQueuedExecutions.map Prod.fst).Nodup := by
  have hp := List.perm_insertionSort queuedBefore
    (doc.executions.entries.filter fun entry => entry.2.status = .Queued)
  refine ((hp.map Prod.fst).nodup_iff).mpr ?_
  exact doc.executions.nodup.sublist (List.filter_sublist.map Prod.fst)

@[simp] theorem queue_setQueue (executing : Option ExecutionId) (queued : List ExecutionId)
    (doc : RuntimeStateDoc) : (doc.setQueue executing queued).queue = ⟨executing, queued⟩ := by
  unfold setQueue
  split
  · rename_i hq
    simp only [Bool.and_eq_true, decide_eq_true_eq] at hq
    rw [← hq.1, ← hq.2]
  · rfl

@[simp] theorem getExecution_setQueue (executing : Option ExecutionId) (queued : List ExecutionId) :
    (doc.setQueue executing queued).getExecution other = doc.getExecution other := by
  unfold setQueue
  split <;> rfl

theorem getExecution_createExecution : (doc.createExecution executionId).getExecution other =
      if other = executionId then
        some ((doc.getExecution executionId).getD ⟨.Queued, none, none, none, none⟩)
      else doc.getExecution other :=
  find_add executionId other _ doc.executions

theorem getExecution_createExecution_of_some (he : doc.getExecution executionId = some entry) :
    (doc.createExecution executionId).getExecution other = doc.getExecution other := by
  rw [getExecution_createExecution]
  by_cases ho : other = executionId
  · subst ho
    simp [he]
  · simp [ho]

theorem getExecution_setExecutionRunning :
    (doc.setExecutionRunning executionId).getExecution other =
      if other = executionId then
        (doc.getExecution other).map fun entry => { entry with status := .Running }
      else doc.getExecution other := by
  unfold setExecutionRunning getExecution
  rw [find_adjust]
  congr 2
  funext entry
  split
  · rename_i hs
    rw [← hs]
  · rfl

theorem getExecution_setExecutionDone (success : Bool) :
    (doc.setExecutionDone executionId success).getExecution other =
      if other = executionId then
        (doc.getExecution other).map fun entry =>
          { entry with status := if success then .Done else .Error, success := some success }
      else doc.getExecution other :=
  find_adjust executionId other _ doc.executions

theorem getExecution_setExecutionCancelled :
    (doc.setExecutionCancelled executionId).getExecution other =
      if other = executionId then
        (doc.getExecution other).map fun entry => { entry with status := .Cancelled }
      else doc.getExecution other :=
  find_adjust executionId other _ doc.executions

@[simp] theorem getExecution_abortInflightExecutions :
    doc.abortInflightExecutions.getExecution other = (doc.getExecution other).map abortEntry :=
  find_mapValues _ doc.executions other

end RuntimeStateDoc

end Nteract.RuntimeDoc
