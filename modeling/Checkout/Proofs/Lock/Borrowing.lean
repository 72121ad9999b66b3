import Checkout.Proofs.FileSystem.Borrowed
import Checkout.Proofs.Lock.Accounts
import Checkout.Proofs.Lock.WellFormed

/-!
# The lock files of a descent

At every point of a descent the files are those from before it, with the lock files of the locks it has
taken held. Giving the locks back leaves the files as they were, but for stale lock files.
-/

namespace Checkout

variable {σ : Type}

open Relation (ReflTransGen)
open FileSystem (Borrowed SameTree)

namespace AreaLock

variable {before : FileSystem} {mine : List FileLock} {gone : Set Path} {world after : World σ}
  {path : Path} {write : Bool} {depth : Depth} {lock : AreaLock} {locks : List AreaLock}

/-- The locks on files that go with some locks on directories. -/
def fileLocks (locks : List AreaLock) : List FileLock :=
  locks.filterMap fun lock => lock.held.bind DirectoryLock.file

theorem fileLocks_append (front back : List AreaLock) :
    fileLocks (front ++ back) = fileLocks front ++ fileLocks back :=
  List.filterMap_append

theorem path_of_mem_fileLocks {file : FileLock} (sound : ∀ lock ∈ locks, lock.Sound)
    (file_mem : file ∈ fileLocks locks) : ∃ lock ∈ locks, file.path = Area.lockFile lock.path := by
  obtain ⟨lock, lock_mem, found⟩ := List.mem_filterMap.mp file_mem
  obtain ⟨held, held_eq, file_eq⟩ := Option.bind_eq_some_iff.mp found
  exact ⟨lock, lock_mem, (sound lock lock_mem held held_eq).file_path file file_eq⟩

/-- A lock that was acquired holds its lock file, if it has one. -/
theorem borrowed_acquire (borrowed : Borrowed before world.files mine gone)
    (noLink : ¬before.NamesLink (Area.lockFile path))
    (acquired : acquire path write depth world = .ok lock after) :
    Borrowed before after.files (fileLocks [lock] ++ mine) gone := by
  obtain ⟨-, held, locked, rfl⟩ := acquire_ok acquired
  rw [DirectoryLock.acquire_apply] at locked
  split at locked
  · simp at locked
  · split at locked
    · rcases borrowed.tryAcquire noLink with
        ⟨⟨error, refused⟩, -⟩ | ⟨refused, -⟩ | ⟨file, files, taken, -, further⟩
      · simp [refused] at locked
      · simp [refused] at locked
      · simp only [taken, EStateM.Result.ok.injEq] at locked
        obtain ⟨rfl, rfl⟩ := locked
        exact further
    · simp only [EStateM.Result.ok.injEq] at locked
      obtain ⟨rfl, rfl⟩ := locked
      exact borrowed

theorem files_acquire_error {error : Error} (borrowed : Borrowed before world.files mine gone)
    (noLink : ¬before.NamesLink (Area.lockFile path))
    (refused : acquire path write depth world = .error error after) :
    after.files = world.files := by
  have unchanged {files : FileSystem}
      (tried : FileLock.tryAcquire (Area.lockFile path) world.files = .ok none files ∨
        ∃ error, FileLock.tryAcquire (Area.lockFile path) world.files = .error error files) :
      files = world.files := by
    rcases borrowed.tryAcquire noLink with ⟨⟨other, ran⟩, -⟩ | ⟨ran, -⟩ | ⟨file, last, ran, -, -⟩
    · simpa [ran, eq_comm] using tried
    · simpa [ran, eq_comm] using tried
    · simp [ran] at tried
  rw [acquire_apply] at refused
  split at refused
  · split at refused
    · simp at refused
    · rename_i unlocked
      simp only [EStateM.Result.error.injEq] at refused
      rw [← refused.2]
      rw [DirectoryLock.acquire_apply] at unlocked
      split at unlocked
      · simp only [EStateM.Result.error.injEq] at unlocked
        rw [← unlocked.2]
      · split at unlocked
        · split at unlocked
          · simp at unlocked
          · rename_i tried
            simp only [EStateM.Result.error.injEq] at unlocked
            rw [← unlocked.2]
            exact unchanged (Or.inl tried)
          · rename_i error files tried
            simp only [EStateM.Result.error.injEq] at unlocked
            rw [← unlocked.2]
            exact unchanged (Or.inr ⟨error, tried⟩)
        · simp at unlocked
  · simp only [EStateM.Result.error.injEq] at refused
    rw [← refused.2]

theorem sameTree_acquire (wellFormed : world.files.WellFormed)
    (acquired : acquire path write depth world = .ok lock after) :
    SameTree world.files after.files := by
  obtain ⟨-, held, locked, rfl⟩ := acquire_ok acquired
  have tried := FileLock.sameTree_tryAcquire wellFormed (Area.lockFile path)
  rw [DirectoryLock.acquire_apply] at locked
  split at locked
  · simp at locked
  · split at locked
    · split at locked
      · rename_i ran
        simp only [EStateM.Result.ok.injEq] at locked
        rw [stateAfter_of_ok ran] at tried
        rw [← locked.2]
        exact tried
      · simp at locked
      · simp at locked
    · simp only [EStateM.Result.ok.injEq] at locked
      rw [← locked.2]
      exact SameTree.refl _

theorem borrowed_release (borrowed : Borrowed before world.files (fileLocks [lock] ++ mine) gone)
    (gone_mem : ∀ file ∈ fileLocks [lock], file.path ∈ gone) :
    Borrowed before (stateAfter lock.release world).files mine gone := by
  cases held_eq : lock.held with
  | none =>
      have none_held : fileLocks [lock] = [] := by simp [fileLocks, held_eq]
      have unchanged : stateAfter lock.release world = world := by
        simp [stateAfter, release, held_eq]
      rw [none_held] at borrowed
      rw [unchanged]
      exact borrowed
  | some held =>
      have released : stateAfter lock.release world = stateAfter held.release world := by
        simp [stateAfter, release, held_eq]
      rw [released, DirectoryLock.stateAfter_release]
      cases file_eq : held.file with
      | none =>
          have none_held : fileLocks [lock] = [] := by simp [fileLocks, held_eq, file_eq]
          rw [none_held] at borrowed
          exact borrowed
      | some file =>
          have one_held : fileLocks [lock] = [file] := by simp [fileLocks, held_eq, file_eq]
          rw [one_held] at borrowed gone_mem
          exact borrowed.remove (gone_mem file List.mem_cons_self)

/-- When locks are given back, their lock files are given back. -/
theorem borrowed_giveBack (borrowed : Borrowed before world.files (fileLocks locks ++ mine) gone)
    (gone_mem : ∀ file ∈ fileLocks locks, file.path ∈ gone) :
    Borrowed before (giveBack locks world).files mine gone := by
  induction locks generalizing world with
  | nil => exact borrowed
  | cons lock rest ih =>
      have split : fileLocks (lock :: rest) = fileLocks [lock] ++ fileLocks rest :=
        fileLocks_append [lock] rest
      rw [split, List.append_assoc] at borrowed
      rw [split] at gone_mem
      have first := borrowed_release borrowed
        (fun file file_mem => gone_mem file (List.mem_append_left _ file_mem))
      exact ih first (fun file file_mem => gone_mem file (List.mem_append_right _ file_mem))

end AreaLock

namespace Descent

variable {cancel : Option (Cancellation σ)} {write : Bool} {before : FileSystem}
  {mine : List FileLock} {gone : Set Path} {start here next : Descent σ}

/-- The descent into the whole tree below a directory. -/
def whole (world : World σ) (depth : Depth) (directory : Path) : Descent σ :=
  ⟨world, [Task.whole world.files depth directory], []⟩

/-- The descent comes to a directory, to lock it. -/
def Visits (cancel : Option (Cancellation σ)) (write : Bool) (start : Descent σ)
    (directory : Path) : Prop :=
  ∃ world task pending taken,
    ReflTransGen (Step cancel write) start ⟨world, task :: pending, taken⟩ ∧
      0 < task.levels ∧ task.directory = directory

/-- The descent locks a directory, whatever comes of it later. -/
def Locks (cancel : Option (Cancellation σ)) (write : Bool) (start : Descent σ)
    (directory : Path) : Prop :=
  ∃ world asked locked task pending taken lock,
    ReflTransGen (Step cancel write) start ⟨world, task :: pending, taken⟩ ∧
      0 < task.levels ∧ task.directory = directory ∧ AreaLock.poll cancel world = .ok () asked ∧
      AreaLock.acquire task.directory write task.depth asked = .ok lock locked

/-- The files are those from before the descent, but for the lock files of the locks it has taken. -/
structure Borrows (cancel : Option (Cancellation σ)) (write : Bool) (before : FileSystem)
    (mine : List FileLock) (gone : Set Path) (start descent : Descent σ) : Prop where
  borrowed : Borrowed before descent.world.files (AreaLock.fileLocks descent.taken ++ mine) gone
  locked : ∀ lock ∈ descent.taken, Locks cancel write start lock.path
  sound : ∀ lock ∈ descent.taken, lock.Sound

theorem Borrows.acquire {world asked locked : World σ} {task : Task} {pending after : List Task}
    {taken : List AreaLock} {lock : AreaLock}
    (borrows : Borrows cancel write before mine gone start ⟨world, task :: pending, taken⟩)
    (down : ReflTransGen (Step cancel write) start ⟨world, task :: pending, taken⟩)
    (noLink : ∀ directory, Visits cancel write start directory →
      ¬before.NamesLink (Area.lockFile directory))
    (more : 0 < task.levels) (polled : AreaLock.poll cancel world = .ok () asked)
    (acquired : AreaLock.acquire task.directory write task.depth asked = .ok lock locked) :
    Borrows cancel write before mine gone start ⟨locked, after, lock :: taken⟩ := by
  have visited := noLink task.directory ⟨world, task, pending, taken, down, more, rfl⟩
  have borrowed := borrows.borrowed
  simp only [← AreaLock.files_poll polled] at borrowed
  have further := AreaLock.borrowed_acquire borrowed visited acquired
  obtain ⟨-, held, claimed, lock_eq⟩ := AreaLock.acquire_ok acquired
  refine ⟨?_, ?_, ?_⟩
  · rw [← List.append_assoc, ← AreaLock.fileLocks_append] at further
    exact further
  · intro other other_mem
    rcases List.mem_cons.mp other_mem with rfl | older
    · rw [lock_eq]
      exact ⟨world, asked, locked, task, pending, taken, other, down, more, rfl, polled, acquired⟩
    · exact borrows.locked other older
  · intro other other_mem
    rcases List.mem_cons.mp other_mem with rfl | older
    · rw [lock_eq]
      intro inner inner_eq
      rw [Option.some.injEq] at inner_eq
      rw [← inner_eq]
      exact (DirectoryLock.acquire_ok claimed).2.1
    · exact borrows.sound other older

theorem borrows_steps (borrowed : Borrowed before start.world.files mine gone) (fresh : start.taken = [])
    (noLink : ∀ directory, Visits cancel write start directory →
      ¬before.NamesLink (Area.lockFile directory))
    (down : ReflTransGen (Step cancel write) start next) :
    Borrows cancel write before mine gone start next := by
  induction down with
  | refl => exact ⟨by rw [fresh]; exact borrowed, by simp [fresh], by simp [fresh]⟩
  | tail earlier step ih =>
      cases step with
      | skip exhausted => exact ⟨ih.borrowed, ih.locked, ih.sound⟩
      | claim task more polled acquired listed =>
          exact ih.acquire earlier noLink more polled acquired

theorem Borrows.fails {failed : Descent σ} {error : Error}
    (borrows : Borrows cancel write before mine gone start here)
    (down : ReflTransGen (Step cancel write) start here)
    (noLink : ∀ directory, Visits cancel write start directory →
      ¬before.NamesLink (Area.lockFile directory))
    (fails : Fails cancel write here error failed) :
    Borrows cancel write before mine gone start failed := by
  cases fails with
  | cancelled task more polled =>
      obtain ⟨-, caller, rfl⟩ := AreaLock.poll_error polled
      exact ⟨borrows.borrowed, borrows.locked, borrows.sound⟩
  | @refused world asked unlocked task pending taken error more polled refused =>
      have visited := noLink task.directory ⟨world, task, pending, taken, down, more, rfl⟩
      have borrowed := borrows.borrowed
      simp only [← AreaLock.files_poll polled] at borrowed
      refine ⟨?_, borrows.locked, borrows.sound⟩
      rw [AreaLock.files_acquire_error borrowed visited refused]
      exact borrowed
  | unlisted task more polled acquired unlisted =>
      exact borrows.acquire down noLink more polled acquired

variable {world after : World σ} {depth : Depth} {directory : Path}

/-- None of the lock files that a descent comes to is a link, and `gone` are those it locks. -/
structure Covered (cancel : Option (Cancellation σ)) (write : Bool) (before : FileSystem)
    (gone : Set Path) (start : Descent σ) : Prop where
  noLink : ∀ directory, Visits cancel write start directory →
    ¬before.NamesLink (Area.lockFile directory)
  returned : ∀ directory, Locks cancel write start directory → Area.lockFile directory ∈ gone

/-- A tree that was locked holds the lock files of its locks. -/
theorem borrowed_lockTree {locks : List AreaLock} (borrowed : Borrowed before world.files mine gone)
    (covered : Covered cancel write before gone (whole world depth directory))
    (ran : AreaLock.lockTree cancel write depth directory world = .ok locks after) :
    Borrowed before after.files (AreaLock.fileLocks locks ++ mine) gone ∧
      ∀ lock ∈ locks, Area.lockFile lock.path ∈ gone := by
  have start : Borrowed before (whole world depth directory).world.files mine gone := borrowed
  have borrows := borrows_steps start rfl covered.noLink (lockTree_ok ran)
  refine ⟨?_, ?_⟩
  · refine borrows.borrowed.perm (List.Perm.append_right _ ?_)
    exact (List.reverse_perm locks).filterMap _
  · intro lock lock_mem
    exact covered.returned lock.path (borrows.locked lock (List.mem_reverse.mpr lock_mem))

/-- A tree that cannot be locked holds no more lock files than before. -/
theorem borrowed_lockTree_error {error : Error} (borrowed : Borrowed before world.files mine gone)
    (covered : Covered cancel write before gone (whole world depth directory))
    (ran : AreaLock.lockTree cancel write depth directory world = .error error after) :
    Borrowed before after.files mine gone := by
  obtain ⟨reached, failed, down, fails, rfl⟩ := lockTree_error ran
  have start : Borrowed before (whole world depth directory).world.files mine gone := borrowed
  have borrows := (borrows_steps start rfl covered.noLink down).fails down covered.noLink fails
  refine AreaLock.borrowed_giveBack (borrows.borrowed) ?_
  intro file file_mem
  obtain ⟨lock, lock_mem, path_eq⟩ := AreaLock.path_of_mem_fileLocks borrows.sound file_mem
  rw [path_eq]
  exact covered.returned lock.path (borrows.locked lock lock_mem)

/-- A descent creates no more than files. -/
theorem sameTree_steps (wellFormed : here.world.files.WellFormed)
    (down : ReflTransGen (Step cancel write) here next) :
    SameTree here.world.files next.world.files ∧ next.world.files.WellFormed := by
  induction down with
  | refl => exact ⟨SameTree.refl _, wellFormed⟩
  | tail _ step ih =>
      obtain ⟨same, middleWellFormed⟩ := ih
      cases step with
      | skip exhausted => exact ⟨same, middleWellFormed⟩
      | claim task more polled acquired listed =>
          have askedWellFormed := AreaLock.keepsFiles_poll.ok middleWellFormed polled
          have locked := AreaLock.sameTree_acquire askedWellFormed acquired
          rw [AreaLock.files_poll polled] at locked
          exact ⟨same.trans locked, AreaLock.keepsFiles_acquire.ok askedWellFormed acquired⟩

theorem sameTree_lockTree {locks : List AreaLock} (wellFormed : world.files.WellFormed)
    (ran : AreaLock.lockTree cancel write depth directory world = .ok locks after) :
    SameTree world.files after.files := by
  have start : (whole world depth directory).world.files.WellFormed := wellFormed
  exact (sameTree_steps start (lockTree_ok ran)).1

end Descent

namespace Hierarchy

variable {cancel : Option (Cancellation σ)} {write : Bool} {depth : Depth} {path : Path}
  {before : FileSystem} {gone : Set Path} {others : Multiset (List Component)}
  {world after : World σ} {hierarchy : Hierarchy} {error : Error}

/-- Opening a hierarchy for a path descends from its canonical form. -/
def DescendsAt (world : World σ) (depth : Depth) (path : Path) (start : Descent σ) : Prop :=
  ∃ root, world.files.canonical path = .ok root ∧ start = Descent.whole world depth root

/-- Opening a child does so if the hierarchy accepts the path. -/
def DescendsBelow (world : World σ) (hierarchy : Hierarchy) (depth : Depth) (path : Path)
    (start : Descent σ) : Prop :=
  ∃ real, world.files.canonical path = .ok real ∧ hierarchy.Accepts world.files real ∧
    start = Descent.whole world depth real

/-- The files are those from before, but for the lock files of the open locks. -/
structure Borrows (before : FileSystem) (gone : Set Path) (state : World σ × Hierarchy) : Prop where
  borrowed : Borrowed before state.1.files (AreaLock.fileLocks state.2.openLocks) gone
  returned : ∀ lock ∈ state.2.openLocks, Area.lockFile lock.path ∈ gone

theorem borrowed_openAt_error (wellFormed : world.files.WellFormed)
    (covered : ∀ start, DescendsAt world depth path start →
      start.Covered cancel write world.files gone)
    (refused : openAt cancel write depth path world = .error error after) :
    Borrowed world.files after.files [] gone := by
  rcases openAt_error refused with ⟨rfl, -⟩ | ⟨root, canonical, ran⟩
  · exact Borrowed.start wellFormed gone
  · exact Descent.borrowed_lockTree_error (Borrowed.start wellFormed gone)
      (covered _ ⟨root, canonical, rfl⟩) ran

theorem borrowed_openAt (wellFormed : world.files.WellFormed)
    (covered : ∀ start, DescendsAt world depth path start →
      start.Covered cancel write world.files gone)
    (opened : openAt cancel write depth path world = .ok hierarchy after) :
    Borrowed world.files after.files (AreaLock.fileLocks hierarchy.openLocks) gone ∧
      ∀ lock ∈ hierarchy.openLocks, Area.lockFile lock.path ∈ gone := by
  obtain ⟨root, locks, canonical, ran, rfl⟩ := openAt_ok opened
  have ledger := Descent.ledger_lockTree ran
  have entered : (insertAll ⟨root, []⟩ locks).openLocks.Perm (locks ++ []) := by
    apply openLocks_insertAll
    · simpa using ledger.allOpen
    · simpa using ledger.distinct
    · simp [openLocks]
  rw [List.append_nil] at entered
  obtain ⟨borrowed, returned⟩ := Descent.borrowed_lockTree (Borrowed.start wellFormed gone)
    (covered _ ⟨root, canonical, rfl⟩) ran
  rw [List.append_nil] at borrowed
  refine ⟨borrowed.perm (entered.symm.filterMap _), ?_⟩
  intro lock lock_mem
  exact returned lock (entered.subset lock_mem)

/-- Opening a child keeps to the lock files of open locks, whether or not it fails. -/
theorem borrows_openChild (accounts : Accounts others (world, hierarchy))
    (borrowed : Borrowed before world.files (AreaLock.fileLocks hierarchy.openLocks) gone)
    (returned : ∀ lock ∈ hierarchy.openLocks, Area.lockFile lock.path ∈ gone)
    (covered : ∀ start, DescendsBelow world hierarchy depth path start →
      start.Covered cancel write before gone) :
    Borrows before gone (stateAfter (openChild cancel write depth path) (world, hierarchy)) := by
  rcases stateAfter_openChild cancel write depth path world hierarchy with
    ⟨unchanged, -⟩ | ⟨real, error, failed, canonical, accepts, ran, same⟩ |
      ⟨real, locks, locked, canonical, accepts, ran, same⟩
  · rw [unchanged]
    exact ⟨borrowed, returned⟩
  · rw [same]
    exact ⟨Descent.borrowed_lockTree_error borrowed (covered _ ⟨real, canonical, accepts, rfl⟩) ran,
      returned⟩
  · rw [same]
    have entered := accounts.openLocks_insertAll (Descent.ledger_lockTree ran)
    obtain ⟨further, more⟩ :=
      Descent.borrowed_lockTree borrowed (covered _ ⟨real, canonical, accepts, rfl⟩) ran
    rw [← AreaLock.fileLocks_append] at further
    refine ⟨(further.perm (entered.symm.filterMap _)), ?_⟩
    intro lock lock_mem
    rcases List.mem_append.mp (entered.subset lock_mem) with new | old
    · exact more lock new
    · exact returned lock old

theorem Borrows.returned_fileLocks {locks : List AreaLock}
    (borrows : Borrows before gone (world, hierarchy))
    (accounts : Accounts others (world, hierarchy))
    (sub : ∀ lock ∈ locks, lock ∈ hierarchy.openLocks) :
    ∀ file ∈ AreaLock.fileLocks locks, file.path ∈ gone := by
  intro file file_mem
  obtain ⟨lock, lock_mem, path_eq⟩ := AreaLock.path_of_mem_fileLocks
    (fun lock lock_mem => accounts.sound lock (mem_openLocks.mp (sub lock lock_mem)).1) file_mem
  rw [path_eq]
  exact borrows.returned lock (sub lock lock_mem)

theorem Borrows.closedUnder (borrows : Borrows before gone (world, hierarchy))
    (accounts : Accounts others (world, hierarchy)) (path : Path) :
    Borrows before gone (AreaLock.giveBack (hierarchy.openUnder path).reverse world,
      hierarchy.closedUnder path) := by
  have parted := hierarchy.openLocks_parted path
  refine ⟨?_, ?_⟩
  · apply AreaLock.borrowed_giveBack
    · rw [← AreaLock.fileLocks_append]
      exact borrows.borrowed.perm (parted.filterMap _)
    · apply borrows.returned_fileLocks accounts
      intro lock lock_mem
      exact parted.symm.subset (List.mem_append_left _ lock_mem)
  · intro lock lock_mem
    exact borrows.returned lock (parted.symm.subset (List.mem_append_right _ lock_mem))

theorem Borrows.close (borrows : Borrows before gone (world, hierarchy))
    (accounts : Accounts others (world, hierarchy)) :
    Borrows before gone (stateAfter Hierarchy.close (world, hierarchy)) := by
  rw [stateAfter_close, stateAfter_closeLock]
  split
  · exact borrows
  · split
    · exact borrows.closedUnder accounts _
    · exact borrows

/-- When a hierarchy is dropped all its lock files are given back. -/
theorem Borrows.drop (borrows : Borrows before gone (world, hierarchy))
    (accounts : Accounts others (world, hierarchy)) :
    Borrowed before (stateAfter hierarchy.drop world).files [] gone := by
  rw [stateAfter_drop]
  apply AreaLock.borrowed_giveBack
  · rw [List.append_nil]
    exact borrows.borrowed.perm ((List.reverse_perm _).symm.filterMap _)
  · apply borrows.returned_fileLocks accounts
    intro lock lock_mem
    exact List.mem_reverse.mp lock_mem

end Hierarchy

end Checkout
