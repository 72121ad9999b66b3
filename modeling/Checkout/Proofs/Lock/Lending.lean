import Checkout.Proofs.FileSystem.Lent
import Checkout.Proofs.Lock.Borrowing

/-!
# Locks on directories with lock files of their own

Where every directory has a lock file of its own, be it behind a link, a directory that nobody has claimed can be
locked, unless its lock file could not have been opened in the first place.
-/

namespace Checkout

variable {σ : Type}

open FileSystem (Lent Separate)

/-- The lock file of a directory tells which directory it is. -/
theorem Area.components_of_lockFile_eq {directory other : Path} (absolute : directory.isAbsolute = true)
    (otherAbsolute : other.isAbsolute = true) (same : lockFile directory = lockFile other) :
    directory.components = other.components := by
  have components_eq := congrArg Path.components same
  rw [lockFile, lockFile, Area.directory, Area.directory,
    Path.components_join properName_lock (Path.isAbsolute_join properName_directoryName absolute),
    Path.components_join properName_lock (Path.isAbsolute_join properName_directoryName otherAbsolute),
    Path.components_join properName_directoryName absolute,
    Path.components_join properName_directoryName otherAbsolute] at components_eq
  simpa using components_eq

namespace AreaLock

variable {before : FileSystem} {mine : List FileLock} {paths : Set Path} {world after : World σ}
  {path : Path} {write : Bool} {depth : Depth} {lock : AreaLock}

/-- A lock that was acquired has taken its lock file, if it has one. -/
theorem lent_acquire (lent : Lent before world.files mine paths) (separate : Separate before paths)
    (path_mem : Area.lockFile path ∈ paths) (fresh : ∀ file ∈ mine, file.path ≠ Area.lockFile path)
    (acquired : acquire path write depth world = .ok lock after) :
    Lent before after.files (fileLocks [lock] ++ mine) paths := by
  obtain ⟨-, held, locked, rfl⟩ := acquire_ok acquired
  rw [DirectoryLock.acquire_apply] at locked
  split at locked
  · simp at locked
  · split at locked
    · rcases lent.tryAcquire separate path_mem fresh with
        ⟨⟨failure, refused⟩, -⟩ | ⟨file, files, taken, -, further⟩
      · simp [refused] at locked
      · simp only [taken, EStateM.Result.ok.injEq] at locked
        obtain ⟨rfl, rfl⟩ := locked
        exact further
    · simp only [EStateM.Result.ok.injEq] at locked
      obtain ⟨rfl, rfl⟩ := locked
      exact lent

/-- A versioned directory is refused because it is claimed, or because its lock file could never be opened. -/
theorem lent_refused {error : Error} (lent : Lent before world.files mine paths)
    (separate : Separate before paths) (path_mem : Area.lockFile path ∈ paths)
    (fresh : world.isClaimed path = false → ∀ file ∈ mine, file.path ≠ Area.lockFile path)
    (versioned : world.files.isVersioned path = true)
    (refused : acquire path write depth world = .error error after) :
    after.files = world.files ∧
      (error = .alreadyLocked path ∧ world.isClaimed path = true ∨
        (∃ failure, error = .io failure) ∧
          ∃ failure, FileSystem.openFile (Area.lockFile path) before = .error failure before) := by
  rw [acquire_apply, if_pos versioned, DirectoryLock.acquire_apply] at refused
  cases claimed : world.isClaimed path with
  | true =>
      simp only [claimed, if_true, EStateM.Result.error.injEq] at refused
      exact ⟨congrArg World.files refused.2.symm, .inl ⟨refused.1.symm, rfl⟩⟩
  | false =>
      cases write with
      | false => simp [claimed] at refused
      | true =>
          rcases lent.tryAcquire separate path_mem (fresh claimed) with
            ⟨⟨failure, ran⟩, unopenable⟩ | ⟨file, files, ran, -, -⟩
          · simp only [claimed, ran, if_true, Bool.false_eq_true, if_false, EStateM.Result.error.injEq] at refused
            exact ⟨congrArg World.files refused.2.symm, .inr ⟨⟨failure, refused.1.symm⟩, unopenable⟩⟩
          · simp [claimed, ran] at refused

theorem lent_release (lent : Lent before world.files (fileLocks [lock] ++ mine) paths)
    (separate : Separate before paths) :
    Lent before (stateAfter lock.release world).files mine paths := by
  cases held_eq : lock.held with
  | none =>
      have none_held : fileLocks [lock] = [] := by simp [fileLocks, held_eq]
      have unchanged : stateAfter lock.release world = world := by
        simp [stateAfter, release, held_eq]
      rw [none_held] at lent
      rw [unchanged]
      exact lent
  | some held =>
      have released : stateAfter lock.release world = stateAfter held.release world := by
        simp [stateAfter, release, held_eq]
      rw [released, DirectoryLock.stateAfter_release]
      cases file_eq : held.file with
      | none =>
          have none_held : fileLocks [lock] = [] := by simp [fileLocks, held_eq, file_eq]
          rw [none_held] at lent
          exact lent
      | some file =>
          have one_held : fileLocks [lock] = [file] := by simp [fileLocks, held_eq, file_eq]
          rw [one_held] at lent
          exact lent.remove separate

end AreaLock

end Checkout
