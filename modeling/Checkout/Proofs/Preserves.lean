import Checkout.Lock.Hierarchy
import Checkout.Proofs.Action

/-!
# Properties that actions preserve

An action preserves a property of the state if the property still holds when the action has ended, with
a result or with an error. What preserves a property part by part preserves it as a whole.
-/

namespace Checkout

variable {ε σ α β : Type}

/-- The action keeps a property of the state, whether or not it fails. -/
def Preserves (property : σ → Prop) (action : EStateM ε σ α) : Prop :=
  ∀ state, property state → property (stateAfter action state)

namespace Preserves

variable {property : σ → Prop}

theorem pure (value : α) : Preserves property (pure value : EStateM ε σ α) :=
  fun _ holds => holds

theorem throw (error : ε) : Preserves property (throw error : EStateM ε σ α) :=
  fun _ holds => holds

theorem get : Preserves property (get : EStateM ε σ σ) :=
  fun _ holds => holds

theorem bind {first : EStateM ε σ α} {next : α → EStateM ε σ β} (kept : Preserves property first)
    (keptNext : ∀ value, Preserves property (next value)) : Preserves property (first >>= next) := by
  intro state holds
  have middle := kept state holds
  simp only [stateAfter, Action.bind_apply]
  cases ran : first state with
  | ok value after =>
      rw [stateAfter_of_ok ran] at middle
      exact keptNext value after middle
  | error error after =>
      rw [stateAfter_of_error ran] at middle
      exact middle

theorem map {change : α → β} {action : EStateM ε σ α} (kept : Preserves property action) :
    Preserves property (change <$> action) := by
  intro state holds
  have after := kept state holds
  simp only [stateAfter, Action.map_apply]
  cases ran : action state with
  | ok value last =>
      rw [stateAfter_of_ok ran] at after
      exact after
  | error error last =>
      rw [stateAfter_of_error ran] at after
      exact after

theorem discard {action : EStateM ε σ α} (kept : Preserves property action) :
    Preserves property (discard action) :=
  kept.map

theorem ite {condition : Prop} [Decidable condition] {first second : EStateM ε σ α}
    (keptFirst : Preserves property first) (keptSecond : Preserves property second) :
    Preserves property (if condition then first else second) := by
  split
  · exact keptFirst
  · exact keptSecond

/-- What comes after a check that may fail. -/
theorem guard {condition : Prop} [Decidable condition] {error : ε} {rest : Unit → EStateM ε σ α}
    (kept : Preserves property (rest ())) :
    Preserves property (if condition then MonadExcept.throw error >>= rest else rest ()) :=
  ite (fun _ holds => holds) kept

end Preserves

namespace Action

variable {property : World σ → Prop}

theorem preserves_ofLook (look : World σ → Except Error α) : Preserves property (ofLook look) := by
  intro world holds
  cases seen : look world <;> simpa [stateAfter, ofLook, seen] using holds

theorem preserves_ofOutcome (outcome : Except Error α) : Preserves property (ofOutcome outcome) := by
  cases outcome with
  | ok value => exact Preserves.pure value
  | error error => exact Preserves.throw error

theorem preserves_ofCaller (files : FileSystem → Prop) (ask : StateM σ α) :
    Preserves (fun world => files world.files) (ofCaller ask) :=
  fun _ holds => holds

theorem preserves_ofFiles (files : FileSystem → Prop) {action : FileAction α}
    (kept : Preserves files action) : Preserves (fun world : World σ => files world.files)
      (ofFiles action) := by
  intro world holds
  have after := kept world.files holds
  cases ran : action world.files with
  | ok value last =>
      rw [stateAfter_of_ok ran] at after
      simpa [stateAfter, ofFiles, ran] using after
  | error error last =>
      rw [stateAfter_of_error ran] at after
      simpa [stateAfter, ofFiles, ran] using after

theorem preserves_outcome {action : Action σ α} (kept : Preserves property action) :
    Preserves property action.outcome := by
  intro world holds
  have after := kept world holds
  cases ran : action world with
  | ok value last =>
      rw [stateAfter_of_ok ran] at after
      simpa [stateAfter, outcome, ran] using after
  | error error last =>
      rw [stateAfter_of_error ran] at after
      simpa [stateAfter, outcome, ran] using after

theorem preserves_ignoringErrors {action : Action σ Unit} (kept : Preserves property action) :
    Preserves property action.ignoringErrors :=
  (preserves_outcome kept).discard

end Action

end Checkout
