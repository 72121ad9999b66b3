import Checkout.World

/-!
# Running actions

What the steps of an action do to the state they act on, and the state that an action leaves behind.
-/

namespace Checkout

variable {ε σ α β : Type}

/-- The state that an action leaves behind, whether or not it fails. -/
def stateAfter (action : EStateM ε σ α) (state : σ) : σ :=
  match action state with
  | .ok _ after => after
  | .error _ after => after

theorem stateAfter_of_ok {action : EStateM ε σ α} {state after : σ} {value : α}
    (ran : action state = .ok value after) : stateAfter action state = after := by
  simp [stateAfter, ran]

theorem stateAfter_of_error {action : EStateM ε σ α} {state after : σ} {error : ε}
    (ran : action state = .error error after) : stateAfter action state = after := by
  simp [stateAfter, ran]

/-- Whether an action succeeds with a value that passes a check. -/
def yields (action : EStateM ε σ α) (state : σ) (check : α → Bool) : Bool :=
  match action state with
  | .ok value _ => check value
  | .error _ _ => false

theorem ok_of_yields (action : EStateM ε σ α) (state : σ) (check : α → Bool)
    (success : yields action state check = true) :
    ∃ value, action state = .ok value (stateAfter action state) ∧ check value = true := by
  cases ran : action state with
  | ok value after => exact ⟨value, by rw [stateAfter_of_ok ran], by simpa [yields, ran] using success⟩
  | error error after => simp [yields, ran] at success

theorem error_of_not_yields (action : EStateM ε σ α) (state : σ)
    (failure : yields action state (fun _ => true) = false) :
    ∃ error, action state = .error error (stateAfter action state) := by
  cases ran : action state with
  | ok value after => simp [yields, ran] at failure
  | error error after => exact ⟨error, by rw [stateAfter_of_error ran]⟩

namespace Action

@[simp]
theorem bind_apply (first : EStateM ε σ α) (next : α → EStateM ε σ β) (state : σ) :
    (first >>= next) state = match first state with
      | .ok value after => next value after
      | .error error after => .error error after := by
  simp only [bind, EStateM.bind]
  cases first state <;> rfl

@[simp]
theorem map_apply (change : α → β) (action : EStateM ε σ α) (state : σ) :
    (change <$> action) state = match action state with
      | .ok value after => .ok (change value) after
      | .error error after => .error error after := by
  simp only [Functor.map, EStateM.map]
  cases action state <;> rfl

theorem map_eq_ok {change : α → β} {action : EStateM ε σ α} {state after : σ} {result : β} :
    (change <$> action) state = .ok result after ↔
      ∃ value, action state = .ok value after ∧ change value = result := by
  rw [map_apply]
  cases action state with
  | ok value last =>
      simp only [EStateM.Result.ok.injEq]
      constructor
      · rintro ⟨rfl, rfl⟩
        exact ⟨value, ⟨rfl, rfl⟩, rfl⟩
      · rintro ⟨other, ⟨rfl, rfl⟩, rfl⟩
        exact ⟨rfl, rfl⟩
  | error error last => simp

theorem map_eq_error {change : α → β} {action : EStateM ε σ α} {state after : σ} {error : ε} :
    (change <$> action) state = .error error after ↔ action state = .error error after := by
  rw [map_apply]
  cases action state <;> simp

@[simp]
theorem discard_apply (action : EStateM ε σ α) (state : σ) :
    (discard action) state = match action state with
      | .ok _ after => .ok PUnit.unit after
      | .error error after => .error error after :=
  map_apply (Function.const α PUnit.unit) action state

@[simp]
theorem ite_apply (condition : Prop) [Decidable condition] (first second : EStateM ε σ α)
    (state : σ) :
    (if condition then first else second) state =
      if condition then first state else second state := by
  split <;> rfl

@[simp]
theorem pure_apply (value : α) (state : σ) :
    (pure value : EStateM ε σ α) state = .ok value state := rfl

@[simp]
theorem throw_apply (error : ε) (state : σ) :
    (throw error : EStateM ε σ α) state = .error error state := rfl

@[simp]
theorem get_apply (state : σ) : (get : EStateM ε σ σ) state = .ok state state := rfl

@[simp]
theorem set_apply (new state : σ) : (set new : EStateM ε σ PUnit) state = .ok ⟨⟩ new := rfl

@[simp]
theorem modify_apply (change : σ → σ) (state : σ) :
    (modify change : EStateM ε σ PUnit) state = .ok ⟨⟩ (change state) := rfl

end Action

end Checkout
