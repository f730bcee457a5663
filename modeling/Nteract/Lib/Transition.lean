import Mathlib

namespace Nteract.Lib.Transition

variable {σ τ ε : Type*}

-- Taking `events` one after the other leads from `first` to `last`.
inductive Run (step : σ → ε → σ → Prop) : σ → List ε → σ → Prop
  | nil (state : σ) : Run step state [] state
  | cons {first middle last : σ} {event : ε} {events : List ε} :
      step first event middle → Run step middle events last → Run step first (event :: events) last

-- The steps that also meet a condition on the event and the state before it.
def Guarded (step : σ → ε → σ → Prop) (guard : σ → ε → Prop) (before : σ) (event : ε)
    (after : σ) : Prop :=
  guard before event ∧ step before event after

def Confined (step : σ → ε → σ → Prop) (kind : σ → Prop) (before : σ) (event : ε)
    (after : σ) : Prop :=
  step before event after ∧ kind after

-- The state that a machine reaches if it can take every event.
def follow (next : σ → ε → Option σ) (state : σ) : List ε → Option σ
  | [] => some state
  | event :: events => (next state event).bind fun state => follow next state events

theorem Run.of_follow (hf : follow next first events = some last) :
    Run (fun before event after => next before event = some after) first events last := by
  induction events generalizing first with
  | nil =>
    obtain rfl := Option.some.inj hf
    exact .nil first
  | cons _ _ ih =>
    obtain ⟨_, hn, hf⟩ := Option.bind_eq_some_iff.mp hf
    exact .cons hn (ih hf)

theorem Run.append (hb : Run step first before middle) (ha : Run step middle after last) :
    Run step first (before ++ after) last := by
  induction hb with
  | nil => exact ha
  | cons hs _ ih => exact .cons hs (ih ha)

theorem Run.split (before after : List ε) (hr : Run step first (before ++ after) last) :
    ∃ middle, Run step first before middle ∧ Run step middle after last := by
  induction before generalizing first with
  | nil => exact ⟨first, .nil first, hr⟩
  | cons _ _ ih =>
    cases hr with
    | cons hs hr =>
      obtain ⟨middle, hb, ha⟩ := ih hr
      exact ⟨middle, .cons hs hb, ha⟩

theorem Run.single (hs : step first event last) : Run step first [event] last :=
  .cons hs (.nil last)

theorem Run.invariant (inv : σ → Prop)
    (hstep : ∀ before event after, inv before → step before event after → inv after)
    (hr : Run step first events last) (hi : inv first) : inv last := by
  induction hr with
  | nil => exact hi
  | cons hs _ ih => exact ih (hstep _ _ _ hi hs)

theorem Run.history_from (inv : List ε → σ → Prop)
    (hstep : ∀ past before event after, Run step first past before → inv past before → step before
      event after → inv (past ++ [event]) after) (hp : Run step first past middle)
    (hi : inv past middle) (hf : Run step middle future last) : inv (past ++ future) last := by
  induction hf generalizing past with
  | nil => rwa [List.append_nil]
  | cons hs _ ih =>
    have hn := ih (hp.append (.cons hs (.nil _))) (hstep _ _ _ _ hp hi hs)
    rwa [List.append_assoc] at hn

theorem Run.history (inv : List ε → σ → Prop)
    (hs : ∀ past before event after, Run step first past before → inv past before →
      step before event after → inv (past ++ [event]) after)
    (hr : Run step first events last) (hi : inv [] first) : inv events last :=
  Run.history_from inv hs (.nil first) hi hr

-- A reflexive and transitive relation that every step establishes holds between the ends.
theorem Run.relates (inv : σ → Prop) (rel : σ → σ → Prop) (hrefl : ∀ state, rel state state)
    (ht : ∀ first middle last, rel first middle → rel middle last → rel first last)
    (hstep : ∀ before event after, inv before → step before event after → inv after ∧ rel before after)
    (hr : Run step first events last) (hi : inv first) : rel first last := by
  induction hr with
  | nil => exact hrefl _
  | cons hs _ ih =>
    obtain ⟨hi, hrel⟩ := hstep _ _ _ hi hs
    exact ht _ _ _ hrel (ih hi)

-- Forward simulation along a view of the concrete state, event by event.
theorem Run.simulates (inv : σ → Prop) (abstractStep : τ → ε → τ → Prop) (view : σ → τ)
    (hstep : ∀ before event after, inv before → step before event after →
      inv after ∧ abstractStep (view before) event (view after))
    (hr : Run step first events last) (hi : inv first) :
    Run abstractStep (view first) events (view last) := by
  induction hr with
  | nil => exact .nil _
  | cons hs _ ih =>
    obtain ⟨hi, ha⟩ := hstep _ _ _ hi hs
    exact .cons ha (ih hi)

theorem Run.mono (hr : Run step first events last)
    (hstep : ∀ before event after, step before event after → other before event after) :
    Run other first events last := by
  induction hr with
  | nil => exact .nil _
  | cons hs _ ih => exact .cons (hstep _ _ _ hs) ih

theorem Run.unguarded {guard : σ → ε → Prop} (hr : Run (Guarded step guard) first events last) :
    Run step first events last := by
  induction hr with
  | nil => exact .nil _
  | cons hs _ ih => exact .cons hs.2 ih

theorem Run.guarded {guard : σ → ε → Prop} (hr : Run step first events last)
    (hc : ∀ event ∈ events, ∀ state, guard state event) :
    Run (Guarded step guard) first events last := by
  induction hr with
  | nil => exact .nil _
  | cons hs _ ih =>
    rw [List.forall_mem_cons] at hc
    exact .cons ⟨hc.1 _, hs⟩ (ih hc.2)

end Nteract.Lib.Transition
