import Nteract.Lib.Transition

namespace Nteract.PersistDebouncer

open Nteract.Lib.Transition

variable {Bytes : Type}

structure PersistDebouncerConfig where
  debounceMs : Nat
  maxIntervalMs : Nat

-- The loop, its channel and its file. `unseen`: `changed()` has not yet announced the `latest`
-- value. `received` is the newest value that the loop was told of or wrote.
structure Debouncer (Bytes : Type) where
  latest : Option Bytes
  unseen : Bool
  received : Option Bytes
  lastReceive : Option Nat
  lastFlush : Option Nat
  file : Option Bytes
  now : Nat
  running : Bool

-- The boolean of an event says whether a write it makes succeeds.
inductive Event (Bytes : Type)
  | Publish (data : Bytes)
  | Elapse (ms : Nat)
  | Changed
  | Flush (writeOk : Bool)
  | Tick (writeOk : Bool)
  | Close (writeOk : Bool)

namespace Debouncer

def start (file : Option Bytes) : Debouncer Bytes :=
  { latest := none, unseen := false, received := none, lastReceive := none, lastFlush := none,
    file := file, now := 0, running := true }

-- A failed write leaves the file as it was: the bytes go through a temporary file.
def doPersist (data : Bytes) (writeOk : Bool) (state : Debouncer Bytes) : Debouncer Bytes :=
  if writeOk then { state with file := some data, received := some data } else state

variable (config : PersistDebouncerConfig) (state : Debouncer Bytes) (writeOk : Bool)

def settle : Debouncer Bytes :=
  { state with lastFlush := some state.now, lastReceive := none }

def changed : Debouncer Bytes :=
  { state with unseen := false, received := state.latest, lastReceive := some state.now }

-- The flush arm, with the answer it sends.
def flush : Debouncer Bytes × Bool :=
  match state.latest with
  | some data =>
    let state := state.doPersist data writeOk
    (if writeOk then state.settle else state, writeOk)
  | none => (state, true)

def shouldFlush (now : Nat) : Bool :=
  match state.lastReceive with
  | some recv =>
    let debounceReady := decide (config.debounceMs ≤ now - recv)
    let maxIntervalReady := match state.lastFlush with
      | some flushed => decide (config.maxIntervalMs ≤ now - flushed)
      | none => decide (config.maxIntervalMs ≤ now - recv)
    debounceReady || maxIntervalReady
  | none => false

-- The timer arm does not look at the result of the write.
def tick : Debouncer Bytes :=
  if state.shouldFlush config state.now then
    match state.latest with
    | some data => (state.doPersist data writeOk).settle
    | none => state
  else state

-- Both arms that leave the loop write what the channel holds.
def close : Debouncer Bytes :=
  let state := match state.latest with
    | some data => state.doPersist data writeOk
    | none => state
  { state with running := false }

def next : Event Bytes → Option (Debouncer Bytes)
  | .Publish data => some { state with latest := some data, unseen := true }
  | .Elapse ms => some { state with now := state.now + ms }
  | .Changed => if state.running && state.unseen then some state.changed else none
  | .Flush writeOk => if state.running then some (state.flush writeOk).1 else none
  | .Tick writeOk => if state.running then some (state.tick config writeOk) else none
  | .Close writeOk => if state.running then some (state.close writeOk) else none

end Debouncer

abbrev Step (config : PersistDebouncerConfig) (before : Debouncer Bytes) (event : Event Bytes)
    (after : Debouncer Bytes) : Prop :=
  before.next config event = some after

def NothingPending (config : PersistDebouncerConfig) (state : Debouncer Bytes) : Prop :=
  ∀ time, state.now ≤ time →
    (state.running && state.shouldFlush config time && state.latest.isSome) = false

def Saved (state : Debouncer Bytes) : Prop :=
  ∀ data, state.received = some data → state.file = some data

-- A write that the timer or the end of the loop makes succeeds.
def UnaskedWritesSucceed (config : PersistDebouncerConfig) (state : Debouncer Bytes) :
    Event Bytes → Prop
  | .Tick writeOk => state.shouldFlush config state.now = true → writeOk = true
  | .Close writeOk => writeOk = true
  | _ => True

structure Remembers (state : Debouncer Bytes) : Prop where
  held : state.latest = none → state.received = none
  saved : state.running = false ∨ state.lastReceive = none → Saved state

theorem saved_doPersist (data : Bytes) (state : Debouncer Bytes) :
    Saved (state.doPersist data true) :=
  fun _ hr => hr

theorem saved_of_none {state : Debouncer Bytes} (hn : state.received = none) : Saved state := by
  intro data hd
  rw [hn] at hd
  cases hd

namespace Remembers

variable {config : PersistDebouncerConfig} {state after : Debouncer Bytes} {writeOk : Bool}

theorem written (hl : state.latest = some data) (hs : Saved state) : Remembers state :=
  ⟨fun hn => absurd (hl.symm.trans hn) (by simp), fun _ => hs⟩

variable (hr : Remembers state)
include hr

theorem flush : Remembers (state.flush writeOk).1 := by
  unfold Debouncer.flush
  split
  · case h_1 data hl =>
    cases writeOk
    · exact hr
    · exact .written hl (saved_doPersist data state)
  · exact hr

theorem tick (hw : state.shouldFlush config state.now = true → writeOk = true) :
    Remembers (state.tick config writeOk) := by
  unfold Debouncer.tick
  split
  · case isTrue hs =>
    obtain rfl := hw hs
    split
    · case h_1 data hl =>
      exact .written hl (saved_doPersist data state)
    · exact hr
  · exact hr

theorem close : Remembers (state.close true) := by
  unfold Debouncer.close
  split
  · case h_1 data hl =>
    exact .written hl (saved_doPersist data state)
  · case h_2 hl => exact ⟨hr.held, fun _ => saved_of_none (hr.held hl)⟩

theorem step (event : Event Bytes)
    (hs : Guarded (Step config) (UnaskedWritesSucceed config) state event after) :
    Remembers after := by
  obtain ⟨hw, hs⟩ := hs
  cases event <;> simp only [Step, Debouncer.next, Option.ite_none_right_eq_some,
    Option.some.injEq, Bool.and_eq_true] at hs
  case Publish data =>
    subst hs
    exact ⟨fun hn => by simp at hn, hr.saved⟩
  case Elapse ms =>
    subst hs
    exact ⟨hr.held, hr.saved⟩
  case Changed =>
    obtain ⟨⟨hrun, _⟩, rfl⟩ := hs
    exact ⟨id, fun hp => by simp [Debouncer.changed, hrun] at hp⟩
  case Flush =>
    obtain ⟨_, rfl⟩ := hs
    exact hr.flush
  case Tick =>
    obtain ⟨_, rfl⟩ := hs
    exact hr.tick hw
  case Close =>
    obtain ⟨_, rfl⟩ := hs
    obtain rfl := hw
    exact hr.close

theorem saved_of_nothingPending (hn : NothingPending config state) : Saved state := by
  cases hrun : state.running with
  | false => exact hr.saved (.inl hrun)
  | true =>
    cases hl : state.lastReceive with
    | none => exact hr.saved (.inr hl)
    | some recv =>
      have hp := hn (state.now + (recv + config.debounceMs)) (Nat.le_add_right _ _)
      have hd : config.debounceMs ≤ state.now + (recv + config.debounceMs) - recv := by omega
      simp only [hrun, Debouncer.shouldFlush, hl, hd, decide_true, Bool.true_or, Bool.true_and,
        Option.isSome_eq_false_iff, Option.isNone_iff_eq_none] at hp
      exact saved_of_none (hr.held hp)

end Remembers

theorem flush_true {state : Debouncer Bytes} (ha : (state.flush writeOk).2 = true)
    (hl : state.latest = some data) : (state.flush writeOk).1.file = some data := by
  simp only [Debouncer.flush, hl] at ha ⊢
  subst ha
  rfl

theorem debouncer_remembers (config : PersistDebouncerConfig) (file : Option Bytes)
    (events : List (Event Bytes)) (state : Debouncer Bytes)
    (hr : Run (Guarded (Step config) (UnaskedWritesSucceed config)) (.start file) events state) :
    (NothingPending config state → Saved state) ∧
      ∀ writeOk, (state.flush writeOk).2 = true → ∀ data, state.latest = some data →
        (state.flush writeOk).1.file = some data := by
  have hm : Remembers state :=
    hr.invariant Remembers (fun _ event _ hi hs => hi.step event hs)
      ⟨fun _ => rfl, fun _ => saved_of_none rfl⟩
  exact ⟨hm.saved_of_nothingPending, fun _ ha _ hl => flush_true ha hl⟩

-- A failed flush stays pending, and the next tick makes up for it.
theorem failed_flush_remembered :
    ∃ state : Debouncer Nat, NothingPending ⟨5, 50⟩ state ∧ state.received = some 1 ∧
      Saved state := by
  have hr : Run (Guarded (Step ⟨5, 50⟩) (UnaskedWritesSucceed ⟨5, 50⟩)) (.start none)
      [.Publish 1, .Changed, .Flush false, .Elapse 5, .Tick true]
      ⟨some 1, false, some 1, none, some 5, some 1, 5, true⟩ :=
    .cons ⟨trivial, rfl⟩ (.cons ⟨trivial, rfl⟩ (.cons ⟨trivial, rfl⟩ (.cons ⟨trivial, rfl⟩
      (.cons ⟨fun _ => rfl, rfl⟩ (.nil _)))))
  exact ⟨_, fun _ _ => rfl, rfl, (debouncer_remembers _ _ _ _ hr).1 fun _ _ => rfl⟩

-- The tick clears the marker of a value that it failed to write.
theorem failed_tick_forgotten :
    ∃ (events : List (Event Nat)) (state : Debouncer Nat),
      Run (Step ⟨5, 50⟩) (.start none) events state ∧ NothingPending ⟨5, 50⟩ state ∧
        ¬ Saved state := by
  refine ⟨[.Publish 1, .Changed, .Elapse 5, .Tick false],
    ⟨some 1, false, some 1, none, some 5, none, 5, true⟩, .of_follow rfl, fun _ _ => rfl, ?_⟩
  intro hs
  exact nomatch hs 1 rfl

end Nteract.PersistDebouncer
