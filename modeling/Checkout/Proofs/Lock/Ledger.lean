import Checkout.Proofs.Lock.Descent
import Mathlib.Data.List.Nodup

/-!
# The claims of a descent

At every point of a descent the claims are those from before it and one for each lock it has taken. So
locking a tree adds exactly the claims of its locks, none of which was there before, and a tree that
cannot be locked leaves the claims as they were.
-/

namespace Checkout

variable {σ : Type}

open Relation (ReflTransGen)

namespace AreaLock

theorem poll_some (ask : Cancellation σ) (world : World σ) :
    poll (some ask) world =
      if (ask world.caller).1 then .error .cancelled { world with caller := (ask world.caller).2 }
      else .ok () { world with caller := (ask world.caller).2 } := by
  rcases asked : ask world.caller with ⟨stop, caller⟩
  cases stop <;> simp [poll, Action.ofCaller, asked]

theorem poll_ok {cancel : Option (Cancellation σ)} {world asked : World σ}
    (polled : poll cancel world = .ok () asked) : ∃ caller, asked = { world with caller } := by
  cases cancel with
  | none =>
      simp only [poll, Action.pure_apply, EStateM.Result.ok.injEq] at polled
      exact ⟨world.caller, polled.2.symm⟩
  | some ask =>
      rw [poll_some] at polled
      split at polled
      · simp at polled
      · simp only [EStateM.Result.ok.injEq] at polled
        exact ⟨_, polled.2.symm⟩

theorem files_poll {cancel : Option (Cancellation σ)} {world asked : World σ}
    (polled : poll cancel world = .ok () asked) : asked.files = world.files := by
  obtain ⟨caller, rfl⟩ := poll_ok polled
  rfl

theorem poll_error {cancel : Option (Cancellation σ)} {world asked : World σ} {error : Error}
    (polled : poll cancel world = .error error asked) :
    error = .cancelled ∧ ∃ caller, asked = { world with caller } := by
  cases cancel with
  | none => simp [poll] at polled
  | some ask =>
      rw [poll_some] at polled
      split at polled
      · simp only [EStateM.Result.error.injEq] at polled
        exact ⟨polled.1.symm, _, polled.2.symm⟩
      · simp at polled

end AreaLock

namespace Descent

variable {cancel : Option (Cancellation σ)} {write : Bool} {before : List (List Component)}

/-- The claims are those from before the descent and those of the locks it has taken. -/
structure Ledger (before : List (List Component)) (descent : Descent σ) : Prop where
  claims_eq : descent.world.claims = descent.taken.map AreaLock.key ++ before
  distinct : (descent.taken.map AreaLock.key).Nodup
  fresh : ∀ lock ∈ descent.taken, lock.key ∉ before
  sound : ∀ lock ∈ descent.taken, lock.Sound
  allOpen : ∀ lock ∈ descent.taken, lock.isOpen = true

theorem Ledger.start (world : World σ) (pending : List Task) :
    Ledger world.claims ⟨world, pending, []⟩ where
  claims_eq := rfl
  distinct := List.nodup_nil
  fresh := by simp
  sound := by simp
  allOpen := by simp

/-- Taking one more lock enters its claim. -/
theorem Ledger.acquire {world asked locked : World σ} {pending after : List Task}
    {taken : List AreaLock} {lock : AreaLock} {path : Path} {depth : Depth}
    (ledger : Ledger before ⟨world, pending, taken⟩)
    (polled : AreaLock.poll cancel world = .ok () asked)
    (acquired : AreaLock.acquire path write depth asked = .ok lock locked) :
    Ledger before ⟨locked, after, lock :: taken⟩ := by
  obtain ⟨caller, rfl⟩ := AreaLock.poll_ok polled
  obtain ⟨-, held, claimed, rfl⟩ := AreaLock.acquire_ok acquired
  obtain ⟨unclaimed, isFor, claims_eq⟩ := DirectoryLock.acquire_ok claimed
  have before_claims := ledger.claims_eq
  simp only at before_claims unclaimed claims_eq
  rw [before_claims, List.mem_append, not_or] at unclaimed
  refine ⟨?_, ?_, ?_, ?_, ?_⟩
  · simp [claims_eq, before_claims, AreaLock.key]
  · rw [List.map_cons, List.nodup_cons]
    exact ⟨unclaimed.1, ledger.distinct⟩
  · intro other other_mem
    rcases List.mem_cons.mp other_mem with rfl | older
    · exact unclaimed.2
    · exact ledger.fresh other older
  · intro other other_mem
    rcases List.mem_cons.mp other_mem with rfl | older
    · intro inner inner_eq
      simp only [Option.some.injEq] at inner_eq
      rw [← inner_eq]
      exact isFor
    · exact ledger.sound other older
  · intro other other_mem
    rcases List.mem_cons.mp other_mem with rfl | older
    · rfl
    · exact ledger.allOpen other older

/-- Giving one of the locks back strikes out its claim. -/
theorem Ledger.release {world : World σ} {pending after : List Task} {taken : List AreaLock}
    {lock : AreaLock} (ledger : Ledger before ⟨world, pending, taken⟩) (lock_mem : lock ∈ taken) :
    Ledger before ⟨stateAfter lock.release world, after, taken.erase lock⟩ := by
  have distinct : (taken.map AreaLock.key).Nodup := ledger.distinct
  have erased : taken.erase lock = taken.filter (· != lock) :=
    (List.Nodup.of_map _ distinct).erase_eq_filter lock
  have kept (other : AreaLock) (other_mem : other ∈ taken) :
      decide (other.key ≠ lock.key) = (other != lock) := by
    rw [Bool.eq_iff_iff, decide_eq_true_eq, bne_iff_ne, not_iff_not]
    exact ⟨List.inj_on_of_nodup_map distinct other_mem lock_mem, fun same => by rw [same]⟩
  have struck : (taken.map AreaLock.key).filter (· ≠ lock.key) = (taken.erase lock).map AreaLock.key := by
    rw [erased, List.filter_map]
    exact congrArg _ (List.filter_congr kept)
  have others : before.filter (· ≠ lock.key) = before := by
    apply List.filter_eq_self.mpr
    intro key key_mem
    rw [decide_eq_true_eq]
    rintro rfl
    exact ledger.fresh lock lock_mem key_mem
  have claims_eq : world.claims = taken.map AreaLock.key ++ before := ledger.claims_eq
  refine ⟨?_, ?_, ?_, ?_, ?_⟩
  · rw [AreaLock.claims_release (ledger.sound lock lock_mem) (ledger.allOpen lock lock_mem), claims_eq,
      List.filter_append, struck, others]
  · exact (List.erase_sublist.map AreaLock.key).nodup distinct
  · exact fun other other_mem => ledger.fresh other (List.mem_of_mem_erase other_mem)
  · exact fun other other_mem => ledger.sound other (List.mem_of_mem_erase other_mem)
  · exact fun other other_mem => ledger.allOpen other (List.mem_of_mem_erase other_mem)

theorem Ledger.step {here next : Descent σ} (ledger : Ledger before here)
    (step : Step cancel write here next) : Ledger before next := by
  cases step with
  | skip exhausted => exact ⟨ledger.1, ledger.2, ledger.3, ledger.4, ledger.5⟩
  | claim task more polled acquired listed => exact ledger.acquire polled acquired

/-- Every descent keeps its ledger. -/
theorem Ledger.steps {here next : Descent σ} (ledger : Ledger before here)
    (down : ReflTransGen (Step cancel write) here next) : Ledger before next := by
  induction down with
  | refl => exact ledger
  | tail _ step ih => exact ih.step step

theorem Ledger.fails {here failed : Descent σ} {error : Error} (ledger : Ledger before here)
    (fails : Fails cancel write here error failed) : Ledger before failed := by
  cases fails with
  | cancelled task more polled =>
      obtain ⟨-, caller, rfl⟩ := AreaLock.poll_error polled
      exact ⟨ledger.1, ledger.2, ledger.3, ledger.4, ledger.5⟩
  | refused task more polled refused =>
      obtain ⟨caller, rfl⟩ := AreaLock.poll_ok polled
      have claims_eq := AreaLock.acquire_error refused
      exact ⟨claims_eq.trans ledger.1, ledger.2, ledger.3, ledger.4, ledger.5⟩
  | unlisted task more polled acquired unlisted => exact ledger.acquire polled acquired

/-- When all locks of a descent are given back, the claims are those from before it. -/
theorem Ledger.claims_giveBack {descent : Descent σ} (ledger : Ledger before descent) :
    (AreaLock.giveBack descent.taken descent.world).claims = before := by
  rw [AreaLock.claims_giveBack descent.taken ledger.sound ledger.allOpen, ledger.claims_eq, List.filter_append]
  have mine : (descent.taken.map AreaLock.key).filter (· ∉ descent.taken.map AreaLock.key) = [] :=
    List.filter_eq_nil_iff.mpr (by simp)
  have others : before.filter (· ∉ descent.taken.map AreaLock.key) = before := by
    apply List.filter_eq_self.mpr
    intro key key_mem
    simp only [decide_eq_true_eq, List.mem_map, not_exists, not_and]
    intro lock lock_mem lock_key
    exact ledger.fresh lock lock_mem (lock_key ▸ key_mem)
  rw [mine, others, List.nil_append]

/-- Locking a tree enters the claims of its locks. -/
theorem ledger_lockTree {depth : Depth} {directory : Path} {world after : World σ}
    {locks : List AreaLock}
    (ran : AreaLock.lockTree cancel write depth directory world = .ok locks after) :
    Ledger world.claims ⟨after, [], locks.reverse⟩ :=
  (Ledger.start world _).steps (lockTree_ok ran)

/-- A tree that cannot be locked leaves the claims as they were. -/
theorem claims_lockTree_error {depth : Depth} {directory : Path} {world after : World σ}
    {error : Error}
    (ran : AreaLock.lockTree cancel write depth directory world = .error error after) :
    after.claims = world.claims := by
  obtain ⟨reached, failed, down, fails, rfl⟩ := lockTree_error ran
  exact (((Ledger.start world _).steps down).fails fails).claims_giveBack

end Descent

end Checkout
