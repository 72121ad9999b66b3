import Checkout.Proofs.Race.Basic

/-!
# A call that runs alone

Opening a hierarchy is what a call does in a race while no other call takes a step.
-/

namespace Checkout

open Relation (ReflTransGen)

/-- What a call does when it is alone. -/
def Call.opening {σ : Type} (call : Call) : Action σ Hierarchy :=
  Hierarchy.openAt none call.write call.depth call.path

namespace Race

variable {σ ι : Type} [DecidableEq ι] {calls : ι → Call} {world after : World σ} {race : Race σ ι}
  {call : ι}

theorem descends {here next : Descent σ} (race : Race σ ι)
    (down : ReflTransGen (Descent.Step none (calls call).write) here next) :
    ReflTransGen (Step calls) (race.advance call here.world (.descending here.pending here.taken))
      (race.advance call next.world (.descending next.pending next.taken)) := by
  induction down with
  | refl => exact ReflTransGen.refl
  | @tail middle last _ step ih =>
      have further : Step calls _ _ := Step.descended call
        (phase_advance_self race call middle.world (.descending middle.pending middle.taken)) step
      rw [advance_advance] at further
      exact ih.tail further

theorem givesBack (race : Race σ ι) (call : ι) (error : Error) (stop : Path)
    (taken : List AreaLock) (world : World σ) :
    ReflTransGen (Step calls) (race.advance call world (.failing error stop taken))
      (race.advance call (AreaLock.giveBack taken world) (.failing error stop [])) := by
  induction taken generalizing world with
  | nil => exact ReflTransGen.refl
  | cons lock rest ih =>
      have first : Step calls _ _ := Step.gaveBack call
        (phase_advance_self race call world (.failing error stop (lock :: rest)))
      rw [advance_advance] at first
      exact ReflTransGen.head first (ih (stateAfter lock.release world))

theorem starts (waiting : race.phase call = .waiting) {root : Path} {next : Descent σ}
    (canonical : race.world.files.canonical (calls call).path = .ok root)
    (down : ReflTransGen (Descent.Step none (calls call).write)
      ⟨race.world, [Task.whole race.world.files (calls call).depth root], []⟩ next) :
    ReflTransGen (Step calls) race
      (race.advance call next.world (.descending next.pending next.taken)) :=
  ReflTransGen.head (Step.started call waiting canonical) (descends race down)

/-- A hierarchy that is opened is opened by the steps of a call. -/
theorem opened_of_opening (waiting : race.phase call = .waiting) {hierarchy : Hierarchy}
    (ran : (calls call).opening race.world = .ok hierarchy after) :
    ∃ root taken, ReflTransGen (Step calls) race (race.advance call after (.opened taken)) ∧
      hierarchy = Hierarchy.insertAll { root, locks := [] } taken.reverse := by
  simp only [Call.opening, Hierarchy.openAt, Action.bind_apply, Action.ofLook] at ran
  cases canonical : race.world.files.canonical (calls call).path with
  | error error => simp [canonical] at ran
  | ok root =>
      simp only [canonical] at ran
      cases locked : AreaLock.lockTree none (calls call).write (calls call).depth root race.world with
      | error error failed => simp [locked] at ran
      | ok locks last =>
          simp only [locked, Action.pure_apply, EStateM.Result.ok.injEq] at ran
          obtain ⟨rfl, rfl⟩ := ran
          have further : Step calls _ _ := Step.finished call
            (phase_advance_self race call last (.descending [] locks.reverse))
          rw [advance_advance] at further
          refine ⟨root, locks.reverse, ?_, by rw [List.reverse_reverse]⟩
          exact (starts waiting canonical (Descent.lockTree_ok locked)).tail further

/-- When no hierarchy can be opened, a call gives back what it has locked, or it never starts. -/
theorem failed_of_opening (waiting : race.phase call = .waiting) {error : Error}
    (ran : (calls call).opening race.world = .error error after) :
    (∃ stop, ReflTransGen (Step calls) race (race.advance call after (.failing error stop []))) ∨
      race.world.files.canonical (calls call).path = .error error ∧ after = race.world := by
  simp only [Call.opening, Hierarchy.openAt, Action.bind_apply, Action.ofLook] at ran
  cases canonical : race.world.files.canonical (calls call).path with
  | error failure =>
      simp only [canonical, EStateM.Result.error.injEq] at ran
      exact Or.inr ⟨by rw [ran.1], ran.2.symm⟩
  | ok root =>
      left
      simp only [canonical] at ran
      cases locked : AreaLock.lockTree none (calls call).write (calls call).depth root race.world with
      | ok locks last => simp [locked] at ran
      | error failure last =>
          simp only [locked, EStateM.Result.error.injEq] at ran
          obtain ⟨rfl, rfl⟩ := ran
          obtain ⟨reached, failed, down, fails, rfl⟩ := Descent.lockTree_error locked
          have stopped : ∃ task rest, failed.pending = task :: rest := by
            cases fails <;> exact ⟨_, _, rfl⟩
          obtain ⟨task, rest, stopped⟩ := stopped
          have further : Step calls _ _ := Step.refused call
            (phase_advance_self race call reached.world (.descending reached.pending reached.taken))
            fails stopped
          rw [advance_advance] at further
          refine ⟨task.directory, ((starts waiting canonical down).tail further).trans ?_⟩
          exact givesBack race call failure task.directory failed.taken failed.world

end Race

end Checkout
