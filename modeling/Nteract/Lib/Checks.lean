import Mathlib

namespace Nteract.Lib

variable {α ε : Type}

-- Checks that are made one after the other, up to the first that fails.
abbrev Check (ε : Type) := Except ε Unit

namespace Check

def require (condition : Bool) (error : ε) : Check ε := if condition then .ok () else .error error

def all : List (Check ε) → Check ε
  | [] => .ok ()
  | .error error :: _ => .error error
  | .ok () :: checks => all checks

def forEach (items : List α) (check : α → Check ε) : Check ε := all (items.map check)

@[simp] theorem require_ok : require condition error = .ok () ↔ condition = true := by
  cases condition <;> simp [require]

@[simp] theorem all_nil : all ([] : List (Check ε)) = .ok () := rfl

@[simp] theorem all_cons_ok :
    all (check :: checks) = .ok () ↔ check = .ok () ∧ all checks = .ok () := by
  cases check <;> simp [all]

theorem forEach_ok : forEach items check = .ok () ↔ ∀ item ∈ items, check item = .ok () := by
  induction items with
  | nil => simp [forEach]
  | cons _ _ ih =>
    unfold forEach at ih ⊢
    simp [ih]

end Check

end Nteract.Lib
