import Mathlib

namespace Nteract.Lib.Effect

variable {ε σ α β : Type}

-- The action ends in `ok`, or fails in `error` with the state it was raised in.
def Post (action : EStateM ε σ α) (state : σ) (ok : α → σ → Prop) (error : ε → σ → Prop) : Prop :=
  match action state with
  | .ok value after => ok value after
  | .error failure after => error failure after

theorem post_iff (action : EStateM ε σ α) (state : σ) (ok : α → σ → Prop) (error : ε → σ → Prop) :
    Post action state ok error ↔ (∀ value after, action state = .ok value after → ok value after) ∧
        ∀ failure after, action state = .error failure after → error failure after := by
  unfold Post
  cases action state <;> simp

variable {action : EStateM ε σ α} {after : σ}

theorem Post.of_ok (hp : Post action state ok error) (hr : action state = .ok value after) :
    ok value after :=
  ((post_iff action state ok error).mp hp).1 value after hr

theorem Post.of_error {failure : ε} (hp : Post action state ok error)
    (hr : action state = .error failure after) : error failure after :=
  ((post_iff action state ok error).mp hp).2 failure after hr

theorem Post.eq_ok
    (hp : Post action state (fun result last => result = value ∧ last = after) fun _ _ => False) :
    action state = .ok value after := by
  unfold Post at hp
  cases hr : action state with
  | ok =>
    rw [hr] at hp
    rw [hp.1, hp.2]
  | error =>
    rw [hr] at hp
    exact hp.elim

theorem Post.eq_error {failure : ε}
    (hp : Post action state (fun _ _ => False) fun result last => result = failure ∧ last = after) :
    action state = .error failure after := by
  unfold Post at hp
  cases hr : action state with
  | ok =>
    rw [hr] at hp
    exact hp.elim
  | error =>
    rw [hr] at hp
    rw [hp.1, hp.2]

theorem Post.imp (hp : Post action state ok error)
    (hok : ∀ value after, ok value after → ok' value after)
    (he : ∀ failure after, error failure after → error' failure after) :
    Post action state ok' error' := by
  unfold Post at hp ⊢
  cases hr : action state with
  | ok value after => exact hok value after (by rwa [hr] at hp)
  | error failure after => exact he failure after (by rwa [hr] at hp)

section Rules

variable (state : σ) (ok : α → σ → Prop) (error : ε → σ → Prop)

@[simp] theorem post_pure (value : α) :
    Post (pure value : EStateM ε σ α) state ok error ↔ ok value state := Iff.rfl

@[simp] theorem post_throw (failure : ε) :
    Post (throw failure : EStateM ε σ α) state ok error ↔ error failure state := Iff.rfl

@[simp] theorem post_get (ok : σ → σ → Prop) :
    Post (get : EStateM ε σ σ) state ok error ↔ ok state state := Iff.rfl

@[simp] theorem post_modify (change : σ → σ) (ok : PUnit → σ → Prop) :
    Post (modify change : EStateM ε σ PUnit) state ok error ↔ ok ⟨⟩ (change state) := Iff.rfl

@[simp] theorem post_bind (action : EStateM ε σ β) (next : β → EStateM ε σ α) :
    Post (action >>= next) state ok error ↔
      Post action state (fun value after => Post (next value) after ok error) error := by
  simp only [Post, Bind.bind, EStateM.bind]
  cases action state <;> rfl

@[simp] theorem post_map (action : EStateM ε σ β) (change : β → α) :
    Post (change <$> action) state ok error ↔
      Post action state (fun value after => ok (change value) after) error := by
  simp only [Post, Functor.map, EStateM.map]
  cases action state <;> rfl

@[simp] theorem post_ite (condition : Prop) [Decidable condition] (first second : EStateM ε σ α) :
    Post (if condition then first else second) state ok error ↔
      (condition → Post first state ok error) ∧ (¬ condition → Post second state ok error) := by
  split <;> simp_all

end Rules

@[simp] theorem post_ofExcept (result : Except ε α) (state : σ) (ok : α → σ → Prop)
    (error : ε → σ → Prop) :
    Post (ofExcept result : EStateM ε σ α) state ok error ↔
      (∀ value, result = .ok value → ok value state) ∧
        ∀ failure, result = .error failure → error failure state := by
  cases result <;> simp [ofExcept]

-- The action succeeds, with a value and a state that pass a test.
def yields (action : EStateM ε σ α) (state : σ) (test : α → σ → Bool) : Bool :=
  match action state with
  | .ok value after => test value after
  | .error _ _ => false

theorem exists_of_yields (hy : yields action state test = true) :
    ∃ value after, action state = .ok value after ∧ test value after = true := by
  unfold yields at hy
  cases hr : action state with
  | ok value after =>
    rw [hr] at hy
    exact ⟨value, after, rfl, hy⟩
  | error =>
    rw [hr] at hy
    cases hy

end Nteract.Lib.Effect
