import Checkout.Proofs.FileSystem.Probing
import Checkout.Proofs.Lock.Opening
import Mathlib.Data.Multiset.AddSub

/-!
# Custody of lock files

Locks on directories take locks on files in use and give them back, and do nothing else to the files. So
what is kept when single locks on files are taken and given back is kept by every operation that opens or
closes locks. Besides, nothing but files of live locks is left where an operation has locked a file.
-/

namespace Checkout

variable {σ : Type} {used : Set Path} {keeps : FileSystem → Multiset FileLock → Prop}
  {others : Multiset FileLock}

open Relation (ReflTransGen)
open FileSystem (Custody Guarded Attended Attends)

/-! ## Single locks -/

namespace DirectoryLock

variable {directory : Path} {write : Bool} {world after : World σ} {lock : DirectoryLock}

/-- The lock on a file that goes with the lock on a directory, if it is locked for writing. -/
def fileLocks (lock : DirectoryLock) : Multiset FileLock :=
  (lock.file.toList : List FileLock)

/-- A directory that is locked for writing comes with its lock file. -/
theorem kept_acquire (custody : Custody used keeps) (kept : keeps world.files others)
    (inUse : write = true → Area.lockFile directory ∈ used)
    (acquired : acquire directory write world = .ok lock after) :
    keeps after.files (lock.fileLocks + others) ∧
      (write = true → Attended after.files (lock.fileLocks + others) (Area.lockFile directory)) := by
  rw [acquire_apply] at acquired
  split at acquired
  · simp at acquired
  · split at acquired
    · rename_i writing
      rcases custody.tryAcquire kept (inUse writing) with
        ⟨error, failed⟩ | refused | ⟨file, files, taken, -, further, attended⟩
      · simp [failed] at acquired
      · simp [refused] at acquired
      · simp only [taken, EStateM.Result.ok.injEq] at acquired
        rcases acquired with ⟨rfl, rfl⟩
        exact ⟨further, fun _ => attended⟩
    · rename_i reading
      simp only [EStateM.Result.ok.injEq] at acquired
      rcases acquired with ⟨rfl, rfl⟩
      exact ⟨by simpa [fileLocks] using kept, fun writing => absurd writing reading⟩

theorem files_acquire_error {error : Error} (custody : Custody used keeps)
    (kept : keeps world.files others) (inUse : write = true → Area.lockFile directory ∈ used)
    (refused : acquire directory write world = .error error after) : after.files = world.files := by
  rw [acquire_apply] at refused
  split at refused
  · simp only [EStateM.Result.error.injEq] at refused
    rw [← refused.2]
  · split at refused
    · rename_i writing
      rcases custody.tryAcquire kept (inUse writing) with
        ⟨other, failed⟩ | taken | ⟨file, files, taken, -⟩
      · simp only [failed, EStateM.Result.error.injEq] at refused
        rw [← refused.2]
      · simp only [taken, EStateM.Result.error.injEq] at refused
        rw [← refused.2]
      · simp [taken] at refused
    · simp at refused

theorem kept_release (custody : Custody used keeps) (kept : keeps world.files (lock.fileLocks + others)) :
    keeps (stateAfter lock.release world).files others := by
  rw [stateAfter_release]
  cases file_eq : lock.file with
  | none => simpa [fileLocks, file_eq] using kept
  | some file =>
      have held : keeps world.files (file ::ₘ others) := by simpa [fileLocks, file_eq] using kept
      exact custody.remove held

end DirectoryLock

namespace AreaLock

variable {path : Path} {write : Bool} {depth : Depth} {world after : World σ} {lock : AreaLock}

/-- The live locks on files that go with some locks. -/
def live (locks : List AreaLock) : Multiset FileLock :=
  (fileLocks locks : List FileLock)

@[simp]
theorem live_nil : live [] = 0 := rfl

theorem live_append (front back : List AreaLock) : live (front ++ back) = live front + live back := by
  rw [live, fileLocks_append, ← Multiset.coe_add]
  rfl

theorem live_cons (lock : AreaLock) (rest : List AreaLock) :
    live (lock :: rest) = live [lock] + live rest :=
  live_append [lock] rest

theorem live_perm {locks others : List AreaLock} (reordered : locks.Perm others) :
    live locks = live others :=
  Multiset.coe_eq_coe.mpr (reordered.filterMap _)

theorem live_of_held {held : DirectoryLock} (held_eq : lock.held = some held) :
    live [lock] = held.fileLocks := by
  cases file_eq : held.file <;> simp [live, fileLocks, DirectoryLock.fileLocks, held_eq, file_eq]

theorem mem_live {locks : List AreaLock} {held : DirectoryLock} {file : FileLock}
    (lock_mem : lock ∈ locks) (held_eq : lock.held = some held) (file_eq : held.file = some file) :
    file ∈ live locks :=
  Multiset.mem_coe.mpr (List.mem_filterMap.mpr ⟨lock, lock_mem, by simp [held_eq, file_eq]⟩)

theorem live_of_closed (closed : lock.held = none) : live [lock] = 0 := by
  simp [live, fileLocks, closed]

theorem kept_acquire (custody : Custody used keeps) (kept : keeps world.files others)
    (inUse : write = true → Area.lockFile path ∈ used)
    (acquired : acquire path write depth world = .ok lock after) :
    keeps after.files (live [lock] + others) ∧
      (write = true → Attended after.files (live [lock] + others) (Area.lockFile path)) := by
  rcases acquire_ok acquired with ⟨-, held, locked, rfl⟩
  rw [live_of_held rfl]
  exact DirectoryLock.kept_acquire custody kept inUse locked

theorem kept_acquire_error {error : Error} (custody : Custody used keeps)
    (kept : keeps world.files others) (inUse : write = true → Area.lockFile path ∈ used)
    (refused : acquire path write depth world = .error error after) : keeps after.files others := by
  rw [acquire_apply] at refused
  split at refused
  · split at refused
    · simp at refused
    · rename_i unlocked
      simp only [EStateM.Result.error.injEq] at refused
      rw [← refused.2, DirectoryLock.files_acquire_error custody kept inUse unlocked]
      exact kept
  · simp only [EStateM.Result.error.injEq] at refused
    rw [← refused.2]
    exact kept

theorem kept_release (custody : Custody used keeps) (kept : keeps world.files (live [lock] + others)) :
    keeps (stateAfter lock.release world).files others := by
  cases held_eq : lock.held with
  | none =>
      rw [live_of_closed held_eq, zero_add] at kept
      simpa [stateAfter, release, held_eq] using kept
  | some held =>
      rw [live_of_held held_eq] at kept
      simpa only [release, held_eq] using DirectoryLock.kept_release custody kept

/-- Giving locks back gives their lock files back. -/
theorem kept_giveBack (custody : Custody used keeps) {locks : List AreaLock}
    (kept : keeps world.files (live locks + others)) : keeps (giveBack locks world).files others := by
  induction locks generalizing world with
  | nil =>
      rw [live_nil, zero_add] at kept
      exact kept
  | cons lock rest ih =>
      rw [live_cons, add_assoc] at kept
      exact ih (kept_release custody kept)

/-- When locks are given back, so that `left` are left of them, their lock files are gone. -/
theorem vacant_of_givenBack {files after : FileSystem} {locks front left : List AreaLock}
    {held : DirectoryLock} {file : FileLock} (guarded : Guarded used files (live locks + others))
    (parted : locks.Perm (lock :: (front ++ left))) (held_eq : lock.held = some held)
    (file_eq : held.file = some file)
    (gives : ∀ keeps : FileSystem → Multiset FileLock → Prop, Custody used keeps →
      keeps files (live locks + others) → keeps after (live left + others)) :
    after.Vacant file.path := by
  have split : live locks + others = file ::ₘ (live front + (live left + others)) := by
    have own : held.fileLocks = {file} := by simp [DirectoryLock.fileLocks, file_eq]
    rw [live_perm parted, live_cons, live_append, live_of_held held_eq, own, add_assoc, add_assoc,
      Multiset.singleton_add]
  rw [split] at guarded gives
  exact guarded.vacant_of_kept (Multiset.subset_of_le (Multiset.le_add_left _ _)) gives

end AreaLock

/-! ## Trees -/

namespace Descent

variable {cancel : Option (Cancellation σ)} {write : Bool} {start here next : Descent σ}

/-- The lock files that a descent comes to, to lock them. -/
def lockFiles (cancel : Option (Cancellation σ)) (write : Bool) (start : Descent σ) : Set Path :=
  {path | write = true ∧ ∃ directory, Visits cancel write start directory ∧
    path = Area.lockFile directory}

/-- The lock files that a descent locks, whatever comes of it later. -/
def lockedFiles (cancel : Option (Cancellation σ)) (write : Bool) (start : Descent σ) : Set Path :=
  {path | write = true ∧ ∃ directory, Locks cancel write start directory ∧
    path = Area.lockFile directory}

/-- A point of a descent is kept if its files are, with the lock files of the locks taken so far. -/
def KeptAt (keeps : FileSystem → Multiset FileLock → Prop) (others : Multiset FileLock)
    (descent : Descent σ) : Prop :=
  keeps descent.world.files (AreaLock.live descent.taken + others)

theorem kept_claim {world asked locked : World σ} {task : Task} {pending after : List Task}
    {taken : List AreaLock} {lock : AreaLock} (custody : Custody used keeps)
    (inUse : start.lockFiles cancel write ⊆ used)
    (above : ReflTransGen (Step cancel write) start ⟨world, task :: pending, taken⟩)
    (kept : KeptAt keeps others ⟨world, task :: pending, taken⟩) (more : 0 < task.levels)
    (polled : AreaLock.poll cancel world = .ok () asked)
    (acquired : AreaLock.acquire task.directory write task.depth asked = .ok lock locked) :
    KeptAt keeps others ⟨locked, after, lock :: taken⟩ ∧ (write = true →
      KeptAt (fun files live => Attended files live (Area.lockFile task.directory)) others
        ⟨locked, after, lock :: taken⟩) := by
  simp only [KeptAt, ← AreaLock.files_poll polled] at kept
  simp only [KeptAt, AreaLock.live_cons lock taken, add_assoc]
  apply AreaLock.kept_acquire custody kept _ acquired
  intro writing
  exact inUse ⟨writing, task.directory, ⟨world, task, pending, taken, above, more, rfl⟩, rfl⟩

theorem kept_step (custody : Custody used keeps) (inUse : start.lockFiles cancel write ⊆ used)
    (above : ReflTransGen (Step cancel write) start here) (kept : here.KeptAt keeps others)
    (step : Step cancel write here next) : next.KeptAt keeps others := by
  cases step with
  | skip exhausted => exact kept
  | claim task more polled acquired listed =>
      exact (kept_claim custody inUse above kept more polled acquired).1

theorem kept_steps (custody : Custody used keeps) (inUse : start.lockFiles cancel write ⊆ used)
    (above : ReflTransGen (Step cancel write) start here) (kept : here.KeptAt keeps others)
    (down : ReflTransGen (Step cancel write) here next) : next.KeptAt keeps others := by
  induction down with
  | refl => exact kept
  | tail earlier step ih => exact kept_step custody inUse (above.trans earlier) ih step

theorem kept_fails {failed : Descent σ} {error : Error} (custody : Custody used keeps)
    (inUse : start.lockFiles cancel write ⊆ used)
    (above : ReflTransGen (Step cancel write) start here) (kept : here.KeptAt keeps others)
    (fails : Fails cancel write here error failed) : failed.KeptAt keeps others := by
  cases fails with
  | cancelled task more polled =>
      rcases AreaLock.poll_error polled with ⟨-, caller, rfl⟩
      exact kept
  | @refused world asked unlocked task pending taken error more polled refused =>
      simp only [KeptAt, ← AreaLock.files_poll polled] at kept
      apply AreaLock.kept_acquire_error custody kept _ refused
      intro writing
      exact inUse ⟨writing, task.directory, ⟨world, task, pending, taken, above, more, rfl⟩, rfl⟩
  | unlisted task more polled acquired unlisted =>
      exact (kept_claim custody inUse above kept more polled acquired).1

/-! ## What a descent locks -/

/-- There is only one way down. -/
theorem Step.unique {other : Descent σ} (step : Step cancel write here next)
    (another : Step cancel write here other) : next = other := by
  cases step with
  | skip exhausted =>
      cases another with
      | skip _ => rfl
      | claim task more polled acquired listed => omega
  | claim task more polled acquired listed =>
      cases another with
      | skip exhausted => omega
      | claim _ _ samePolled sameAcquired sameListed =>
          rw [polled, EStateM.Result.ok.injEq] at samePolled
          rcases samePolled with ⟨-, rfl⟩
          rw [acquired, EStateM.Result.ok.injEq] at sameAcquired
          rcases sameAcquired with ⟨rfl, rfl⟩
          rw [listed, Except.ok.injEq] at sameListed
          rw [sameListed]

theorem Fails.not_step {failed : Descent σ} {error : Error}
    (fails : Fails cancel write here error failed) : ¬Step cancel write here next := by
  intro step
  cases fails with
  | cancelled task more polled =>
      cases step with
      | skip exhausted => omega
      | claim _ _ went _ _ => simp [polled] at went
  | refused task more polled refused =>
      cases step with
      | skip exhausted => omega
      | claim _ _ samePolled acquired _ =>
          rw [polled, EStateM.Result.ok.injEq] at samePolled
          rcases samePolled with ⟨-, rfl⟩
          simp [refused] at acquired
  | unlisted task more polled acquired unlisted =>
      cases step with
      | skip exhausted => omega
      | claim _ _ samePolled sameAcquired listed =>
          rw [polled, EStateM.Result.ok.injEq] at samePolled
          rcases samePolled with ⟨-, rfl⟩
          rw [acquired, EStateM.Result.ok.injEq] at sameAcquired
          rcases sameAcquired with ⟨rfl, rfl⟩
          simp [unlisted] at listed

/-- A descent that cannot go on has passed every directory that it locks, and left nothing but files of live
locks there; or it is about to lock the directory. -/
theorem Locks.attended {directory : Path} (locks : Locks cancel write start directory)
    (custody : Custody used keeps) (inUse : start.lockFiles cancel write ⊆ used)
    (kept : start.KeptAt keeps others) (writing : write = true)
    (down : ReflTransGen (Step cancel write) start next) (stuck : ∀ other, ¬Step cancel write next other) :
    next.KeptAt (fun files live => keeps files live ∧
        Attends files live {Area.lockFile directory}) others ∨
      ∃ world asked locked task pending taken lock, next = ⟨world, task :: pending, taken⟩ ∧
        task.directory = directory ∧ AreaLock.poll cancel world = .ok () asked ∧
        AreaLock.acquire task.directory write task.depth asked = .ok lock locked := by
  rcases locks with
    ⟨world, asked, locked, task, pending, taken, lock, above, more, rfl, polled, acquired⟩
  have oneWay : Relator.RightUnique (Step cancel write) := fun _ _ _ step another => step.unique another
  rcases ReflTransGen.total_of_right_unique oneWay above down with further | back
  · rcases further.cases_head with rfl | ⟨middle, step, rest⟩
    · exact Or.inr ⟨world, asked, locked, task, pending, taken, lock, rfl, rfl, polled, acquired⟩
    · left
      have keptHere := kept_steps custody inUse .refl kept above
      have keptNext := kept_step custody inUse above keptHere step
      apply kept_steps (custody.attending {Area.lockFile task.directory}) inUse
        (above.tail step) ⟨keptNext, ?_⟩ rest
      rintro _ rfl
      cases step with
      | skip exhausted => omega
      | claim _ _ went taken listed =>
          exact (kept_claim custody inUse above keptHere more went taken).2 writing
  · rcases back.cases_head with rfl | ⟨middle, step, -⟩
    · exact Or.inr ⟨world, asked, locked, task, pending, taken, lock, rfl, rfl, polled, acquired⟩
    · exact absurd step (stuck middle)

theorem attends_steps (custody : Custody used keeps) (inUse : start.lockFiles cancel write ⊆ used)
    (kept : start.KeptAt keeps others) (down : ReflTransGen (Step cancel write) start next)
    (ended : next.pending = []) : next.KeptAt (fun files live =>
      keeps files live ∧ Attends files live (start.lockedFiles cancel write)) others := by
  refine ⟨kept_steps custody inUse .refl kept down, ?_⟩
  rintro path ⟨writing, directory, locks, rfl⟩
  have stuck : ∀ other, ¬Step cancel write next other := by
    intro other step
    cases step <;> simp at ended
  rcases locks.attended custody inUse kept writing down stuck with
    both | ⟨world, asked, locked, task, pending, taken, lock, rfl, -⟩
  · exact both.2 _ rfl
  · simp at ended

theorem attends_fails {failed : Descent σ} {error : Error} (custody : Custody used keeps)
    (inUse : start.lockFiles cancel write ⊆ used) (kept : start.KeptAt keeps others)
    (down : ReflTransGen (Step cancel write) start here)
    (fails : Fails cancel write here error failed) : failed.KeptAt (fun files live =>
      keeps files live ∧ Attends files live (start.lockedFiles cancel write)) others := by
  have keptHere := kept_steps custody inUse .refl kept down
  refine ⟨kept_fails custody inUse down keptHere fails, ?_⟩
  rintro path ⟨writing, directory, locks, rfl⟩
  rcases locks.attended custody inUse kept writing down (fun other => fails.not_step) with
    both | ⟨world, asked, locked, task, pending, taken, lock, rfl, rfl, polled, acquired⟩
  · exact (kept_fails (custody.attending _) inUse down both fails).2 _ rfl
  · cases fails with
    | cancelled _ _ stopped => simp [polled] at stopped
    | refused _ _ went refused =>
        rw [polled, EStateM.Result.ok.injEq] at went
        rcases went with ⟨-, rfl⟩
        simp [acquired] at refused
    | unlisted _ more went taken _ =>
        exact (kept_claim custody inUse down keptHere more went taken).2 writing

variable {world after : World σ} {depth : Depth} {directory : Path}

/-- Locking a tree keeps what its descent keeps, with the lock files of the new locks. -/
theorem kept_lockTree {locks : List AreaLock} (custody : Custody used keeps)
    (kept : keeps world.files others)
    (inUse : (whole world depth directory).lockFiles cancel write ⊆ used)
    (ran : AreaLock.lockTree cancel write depth directory world = .ok locks after) :
    keeps after.files (AreaLock.live locks + others) ∧ Attends after.files
      (AreaLock.live locks + others) ((whole world depth directory).lockedFiles cancel write) := by
  have start : (whole world depth directory).KeptAt keeps others := by
    simpa [KeptAt, whole] using kept
  rw [AreaLock.live_perm (List.reverse_perm locks).symm]
  exact attends_steps custody inUse start (lockTree_ok ran) rfl

theorem kept_lockTree_error {error : Error} (custody : Custody used keeps)
    (kept : keeps world.files others)
    (inUse : (whole world depth directory).lockFiles cancel write ⊆ used)
    (ran : AreaLock.lockTree cancel write depth directory world = .error error after) :
    keeps after.files others ∧
      Attends after.files others ((whole world depth directory).lockedFiles cancel write) := by
  have start : (whole world depth directory).KeptAt keeps others := by
    simpa [KeptAt, whole] using kept
  rcases lockTree_error ran with ⟨reached, failed, down, fails, rfl⟩
  exact AreaLock.kept_giveBack (custody.attending _) (attends_fails custody inUse start down fails)

end Descent

end Checkout
