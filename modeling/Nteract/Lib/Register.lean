import Nteract.Lib.Transition

namespace Nteract.Lib.Register

open Transition

variable {α : Type*}

-- An acknowledged write takes effect; an interrupted one may have taken effect or not.
inductive Event (α : Type*)
  | Acknowledged (value : α)
  | Interrupted (value : α)
  | Reopened

inductive Step : Option α → Event α → Option α → Prop
  | acknowledged (before : Option α) (value : α) : Step before (.Acknowledged value) (some value)
  | lost (before : Option α) (value : α) : Step before (.Interrupted value) before
  | taken (before : Option α) (value : α) : Step before (.Interrupted value) (some value)
  | reopened (before : Option α) : Step before .Reopened before

theorem run_holds (hr : Run Step first events last) (hf : first = some held)
    (hn : ∀ value, Event.Acknowledged value ∉ events) :
    ∃ value, last = some value ∧ (value = held ∨ Event.Interrupted value ∈ events) := by
  induction hr generalizing held with
  | nil => exact ⟨held, hf, .inl rfl⟩
  | @cons first middle last event events hs _ ih =>
    have hn' : ∀ value, Event.Acknowledged value ∉ events :=
      fun value hm => hn value (.tail _ hm)
    cases hs with
    | acknowledged value => exact absurd (.head _) (hn value)
    | taken =>
      obtain ⟨result, hl, rfl | hin⟩ := ih rfl hn'
      · exact ⟨result, hl, .inr (.head _)⟩
      · exact ⟨result, hl, .inr (.tail _ hin)⟩
    | _ =>
      obtain ⟨result, hl, hc⟩ := ih hf hn'
      exact ⟨result, hl, hc.imp_right (List.mem_cons_of_mem _)⟩

-- The value after a run: the last acknowledged one, or one interrupted since.
theorem run_value (hr : Run Step first (before ++ .Acknowledged value :: after) last)
    (hn : ∀ other, Event.Acknowledged other ∉ after) :
    ∃ result, last = some result ∧ (result = value ∨ Event.Interrupted result ∈ after) := by
  obtain ⟨_, _, hrest⟩ := hr.split
  cases hrest with
  | cons hs hrest =>
    cases hs
    exact run_holds hrest rfl hn

end Nteract.Lib.Register
