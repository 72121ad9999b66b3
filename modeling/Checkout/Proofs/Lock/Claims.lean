import Checkout.Lock.Hierarchy
import Checkout.Proofs.FileSystem.LockFile

/-!
# Claims of locks

Acquiring a lock claims its directory and nothing else, and only if nobody has claimed it; a failed
attempt leaves the claims alone. Giving a lock back takes its claim away, whatever happens to its file.
-/

namespace Checkout

variable {σ : Type}

namespace World

@[simp]
theorem files_claim (world : World σ) (directory : Path) :
    (world.claim directory).files = world.files := rfl

@[simp]
theorem files_unclaim (world : World σ) (directory : Path) :
    (world.unclaim directory).files = world.files := rfl

@[simp]
theorem claims_claim (world : World σ) (directory : Path) :
    (world.claim directory).claims = directory.components :: world.claims := rfl

@[simp]
theorem claims_unclaim (world : World σ) (directory : Path) :
    (world.unclaim directory).claims = world.claims.filter (· ≠ directory.components) := rfl

theorem isClaimed_iff (world : World σ) (directory : Path) :
    world.isClaimed directory = true ↔ directory.components ∈ world.claims := by
  simp [isClaimed]

end World

namespace DirectoryLock

/-- What locking a directory comes to: the claim is made first, and given back when the lock file cannot
be had. -/
theorem acquire_apply (directory : Path) (write : Bool) (world : World σ) :
    acquire directory write world =
      if world.isClaimed directory then .error (.alreadyLocked directory) world
      else if write then
        match FileLock.tryAcquire (Area.lockFile directory) world.files with
        | .ok (some file) files =>
            .ok { directory, file := some file } { world.claim directory with files }
        | .ok none files => .error (.alreadyLocked directory) { world with files }
        | .error error files => .error error { world with files }
      else .ok { directory, file := none } (world.claim directory) := by
  by_cases claimed : world.isClaimed directory = true
  · simp [acquire, claimed]
  · have others : ∀ key ∈ world.claims, key ≠ directory.components := by
      intro key key_mem same
      exact claimed ((world.isClaimed_iff directory).mpr (same ▸ key_mem))
    cases write with
    | false => simp [acquire, claimed]
    | true =>
        cases tried : FileLock.tryAcquire (Area.lockFile directory) world.files with
        | ok file? files =>
            cases file? with
            | none =>
                simp [acquire, acquireFile, claimed, Action.outcome, Action.ofFiles, tried,
                  World.claim, World.unclaim]
                exact others
            | some file =>
                simp [acquire, acquireFile, claimed, Action.outcome, Action.ofFiles, tried]
        | error error files =>
            simp [acquire, acquireFile, claimed, Action.outcome, Action.ofFiles, tried,
              World.claim, World.unclaim]
            exact others

/-- The lock is one on the directory, and the file that goes with it is the directory's lock file. -/
structure IsFor (lock : DirectoryLock) (directory : Path) : Prop where
  directory_eq : lock.directory = directory
  file_path : ∀ file, lock.file = some file → file.path = Area.lockFile directory

/-- A directory that was locked had not been claimed, and is claimed now. -/
theorem acquire_ok {directory : Path} {write : Bool} {world after : World σ}
    {lock : DirectoryLock} (acquired : acquire directory write world = .ok lock after) :
    directory.components ∉ world.claims ∧ lock.IsFor directory ∧
      after.claims = directory.components :: world.claims := by
  rw [acquire_apply] at acquired
  split at acquired
  · simp at acquired
  · rename_i claimed
    rw [World.isClaimed_iff] at claimed
    split at acquired
    · split at acquired
      · rename_i file files tried
        simp only [EStateM.Result.ok.injEq] at acquired
        obtain ⟨rfl, rfl⟩ := acquired
        refine ⟨claimed, ⟨rfl, ?_⟩, rfl⟩
        intro other same
        rw [Option.some.injEq] at same
        rw [← same]
        exact FileLock.path_tryAcquire tried
      · simp at acquired
      · simp at acquired
    · simp only [EStateM.Result.ok.injEq] at acquired
      obtain ⟨rfl, rfl⟩ := acquired
      exact ⟨claimed, ⟨rfl, by simp⟩, rfl⟩

/-- A failed attempt to lock a directory leaves the claims alone. -/
theorem acquire_error {directory : Path} {write : Bool} {world after : World σ} {error : Error}
    (refused : acquire directory write world = .error error after) :
    after.claims = world.claims := by
  rw [acquire_apply] at refused
  split at refused
  · simp only [EStateM.Result.error.injEq] at refused
    rw [← refused.2]
  · split at refused
    · split at refused <;> simp at refused <;> rw [← refused.2]
    · simp at refused

/-- Giving a lock back ends the claim and drops the lock file, even when it fails. -/
theorem stateAfter_release (lock : DirectoryLock) (world : World σ) :
    stateAfter lock.release world =
      { world.unclaim lock.directory with
        files := match lock.file with
          | none => world.files
          | some file => stateAfter file.remove world.files } := by
  cases held : lock.file with
  | none => simp [stateAfter, release, held, Action.ofOutcome, World.unclaim]
  | some file =>
      cases removed : file.remove world.files with
      | ok _ files =>
          simp [stateAfter, release, held, Action.outcome, Action.ofFiles, removed,
            Action.ofOutcome, World.unclaim]
      | error error files =>
          simp [stateAfter, release, held, Action.outcome, Action.ofFiles, removed,
            Action.ofOutcome, World.unclaim]

end DirectoryLock

namespace AreaLock

/-- What the claims say about a lock. -/
def key (lock : AreaLock) : List Component :=
  lock.path.components

/-- A lock that is open holds the lock on its own directory. -/
def Sound (lock : AreaLock) : Prop :=
  ∀ held, lock.held = some held → held.IsFor lock.path

theorem sound_closed (lock : AreaLock) : lock.closed.Sound := by
  simp [Sound, closed]

/-- Locking a directory asks whether it is versioned and then locks it. -/
theorem acquire_apply (path : Path) (write : Bool) (depth : Depth) (world : World σ) :
    acquire path write depth world =
      if world.files.isVersioned path then
        match DirectoryLock.acquire path write world with
        | .ok held after => .ok { path, write, depth, held := some held } after
        | .error error after => .error error after
      else .error (.notWorkingCopy path) world := by
  by_cases versioned : world.files.isVersioned path = true
  · simp only [acquire, Action.bind_apply, Action.get_apply, versioned, if_true]
    cases locked : DirectoryLock.acquire path write world <;> simp [locked]
  · simp [acquire, versioned]

theorem acquire_ok {path : Path} {write : Bool} {depth : Depth} {world after : World σ}
    {lock : AreaLock} (acquired : acquire path write depth world = .ok lock after) :
    world.files.isVersioned path = true ∧ ∃ held,
      DirectoryLock.acquire path write world = .ok held after ∧
        lock = { path, write, depth, held := some held } := by
  rw [acquire_apply] at acquired
  split at acquired
  · rename_i versioned
    split at acquired
    · rename_i held _ locked
      simp only [EStateM.Result.ok.injEq] at acquired
      obtain ⟨rfl, rfl⟩ := acquired
      exact ⟨versioned, held, locked, rfl⟩
    · simp at acquired
  · simp at acquired

theorem acquire_error {path : Path} {write : Bool} {depth : Depth} {world after : World σ}
    {error : Error} (refused : acquire path write depth world = .error error after) :
    after.claims = world.claims := by
  rw [acquire_apply] at refused
  split at refused
  · split at refused
    · simp at refused
    · rename_i unlocked
      simp only [EStateM.Result.error.injEq] at refused
      rw [← refused.2]
      exact DirectoryLock.acquire_error unlocked
  · simp only [EStateM.Result.error.injEq] at refused
    rw [← refused.2]

/-- The claims after an open lock was given back. -/
theorem claims_release {lock : AreaLock} (sound : lock.Sound) (isOpen : lock.isOpen = true)
    (world : World σ) :
    (stateAfter lock.release world).claims = world.claims.filter (· ≠ lock.key) := by
  obtain ⟨held, held_eq⟩ := Option.isSome_iff_exists.mp isOpen
  simp only [release, held_eq]
  rw [DirectoryLock.stateAfter_release, (sound held held_eq).directory_eq]
  rfl

/-! ## Giving several locks back -/

/-- The world after some locks were given back, one after another. -/
def giveBack (locks : List AreaLock) (world : World σ) : World σ :=
  locks.foldl (fun world lock => stateAfter lock.release world) world

theorem giveBack_append (front back : List AreaLock) (world : World σ) :
    giveBack (front ++ back) world = giveBack back (giveBack front world) :=
  List.foldl_append

theorem releaseAll_apply (locks : List AreaLock) (world : World σ) :
    ∃ failure, releaseAll locks world = .ok failure (giveBack locks world) := by
  induction locks generalizing world with
  | nil => exact ⟨none, rfl⟩
  | cons lock rest ih =>
      cases released : lock.release world with
      | ok _ after =>
          obtain ⟨failure, ran⟩ := ih after
          refine ⟨failure, ?_⟩
          simp [releaseAll, Action.outcome, released, ran, giveBack, stateAfter]
      | error error after =>
          obtain ⟨failure, ran⟩ := ih after
          refine ⟨some error, ?_⟩
          simp [releaseAll, Action.outcome, released, ran, giveBack, stateAfter]

theorem stateAfter_releaseAll (locks : List AreaLock) (world : World σ) :
    stateAfter (releaseAll locks) world = giveBack locks world := by
  obtain ⟨failure, ran⟩ := releaseAll_apply locks world
  exact stateAfter_of_ok ran

/-- Giving open locks back takes exactly their claims away. -/
theorem claims_giveBack (locks : List AreaLock) (sound : ∀ lock ∈ locks, lock.Sound)
    (allOpen : ∀ lock ∈ locks, lock.isOpen = true) (world : World σ) :
    (giveBack locks world).claims = world.claims.filter (· ∉ locks.map key) := by
  induction locks generalizing world with
  | nil => exact (List.filter_eq_self.mpr (by simp)).symm
  | cons lock rest ih =>
      have first := claims_release (sound lock List.mem_cons_self)
        (allOpen lock List.mem_cons_self) world
      have others := ih (fun lock mem => sound lock (List.mem_cons_of_mem _ mem))
        (fun lock mem => allOpen lock (List.mem_cons_of_mem _ mem))
        (stateAfter lock.release world)
      change (giveBack rest (stateAfter lock.release world)).claims = _
      rw [others, first, List.filter_filter]
      congr 1
      funext claimed
      simp [not_or, Bool.and_comm]

end AreaLock

end Checkout
