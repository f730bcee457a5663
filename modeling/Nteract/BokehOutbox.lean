import Mathlib

namespace Nteract.BokehOutbox

open List

-- Model, property and encoded value.
abbrev Change := String × String × String

def Change.key (change : Change) : String × String := (change.1, change.2.1)

-- The outbox reads nothing of a one-off request.
variable {Request : Type}

inductive Outbound (Request : Type)
  | Props (sessionId : String) (changes : List Change)
  | OneOff (request : Request)

@[simp]
def Outbound.request : Outbound Request → Option Request
  | .Props _ _ => none
  | .OneOff request => some request

structure OutboxQueue (Request : Type) where
  pending : List (Outbound Request)
  oneOffs : Nat
  closed : Bool

def MAX_PENDING_ONE_OFFS := 256

def mergeChange (pending : List Change) (change : Change) : List Change :=
  pending.filter (·.key ≠ change.key) ++ [change]

-- The entries are given from the back of the queue.
def mergeInto (sessionId : String) (changes : List Change) :
    List (Outbound Request) → Option (List (Outbound Request))
  | .Props id pending :: entries =>
    if id = sessionId then some (.Props id (changes.foldl mergeChange pending) :: entries)
    else (mergeInto sessionId changes entries).map (.Props id pending :: ·)
  | _ => none

namespace OutboxQueue

variable (queue : OutboxQueue Request)

def forwardProps (sessionId : String) (changes : List Change) : OutboxQueue Request :=
  if changes = [] ∨ queue.closed then queue
  else { queue with
    pending := match mergeInto sessionId changes queue.pending.reverse with
      | some entries => entries.reverse
      | none => queue.pending ++ [.Props sessionId changes] }

def oneOff (request : Request) : Except String (OutboxQueue Request) :=
  if queue.closed then .error "the kernel's Bokeh outbox is closed"
  else if queue.oneOffs ≥ MAX_PENDING_ONE_OFFS then
    .error "256 Bokeh events are already waiting for the kernel"
  else .ok ⟨queue.pending ++ [.OneOff request], queue.oneOffs + 1, false⟩

def close (_ : OutboxQueue Request) : OutboxQueue Request := ⟨[], 0, true⟩

-- An empty queue has nothing to give: the caller waits, or stops if it is closed.
def next : Option (Outbound Request × OutboxQueue Request) :=
  match queue.pending with
  | [] => none
  | entry :: pending => some (entry, { queue with
      pending := pending
      oneOffs := if entry.request.isSome then queue.oneOffs - 1 else queue.oneOffs })

end OutboxQueue

inductive Call (Request : Type)
  | ForwardProps (sessionId : String) (changes : List Change)
  | OneOff (request : Request)
  | Next

-- The queue, the entries taken, and what arrived: each write on its own, and the one-off events not
-- refused.
structure Traffic (Request : Type) where
  queue : OutboxQueue Request
  taken : List (Outbound Request)
  arrived : List (Outbound Request)

def perform (traffic : Traffic Request) : Call Request → Traffic Request
  | .ForwardProps sessionId changes =>
    { traffic with
      queue := traffic.queue.forwardProps sessionId changes
      arrived := traffic.arrived ++ changes.map fun change => .Props sessionId [change] }
  | .OneOff request =>
    match traffic.queue.oneOff request with
    | .ok queue => { traffic with queue, arrived := traffic.arrived ++ [.OneOff request] }
    | .error _ => traffic
  | .Next =>
    match traffic.queue.next with
    | some (entry, queue) => { traffic with queue, taken := traffic.taken ++ [entry] }
    | none => traffic

abbrev Values := String × String → Option String

-- The property values of one session, and those that each one-off event found.
structure View (Request : Type) where
  values : Values
  seen : List (Request × Values)

def write (values : Values) (change : Change) : Values :=
  Function.update values change.key (some change.2.2)

def deliver (session : String) (view : View Request) : Outbound Request → View Request
  | .Props id changes =>
    if id = session then { view with values := changes.foldl write view.values } else view
  | .OneOff request => { view with seen := view.seen ++ [(request, view.values)] }

section Delivery

variable (session : String) (view : View Request)

end Delivery

structure Faithful (traffic : Traffic Request) : Prop where
  opened : traffic.queue.closed = false
  views : ∀ session view, (traffic.taken ++ traffic.queue.pending).foldl (deliver session) view =
    traffic.arrived.foldl (deliver session) view
  counted : traffic.queue.oneOffs = (traffic.queue.pending.filterMap Outbound.request).length
  bounded : traffic.queue.oneOffs ≤ MAX_PENDING_ONE_OFFS

end Nteract.BokehOutbox
