import Checkout.Proofs.Process.Closing
import Checkout.Proofs.Process.LockFiles

/-!
# Lock files tell what is locked

A process has live locks on files: those of its hierarchies and directories, and those that it took on single
files. Whatever it does, and whatever happens to other files meanwhile, every live lock has its own file at its
own path, and nobody else holds a file in use. So looking at a lock file, locking it and cleaning it up come
out just as the live locks say, and giving a lock on a directory back removes its file.
-/

namespace Checkout

variable {σ : Type}

open Relation (ReflTransGen)
open FileSystem (Guarded Owned Untouched custody_owned)

/-- A process that also has locks on single files. -/
structure Keeper (σ : Type) extends Process σ where
  loose : Multiset FileLock

namespace Keeper

/-- The live locks on files. -/
def live (keeper : Keeper σ) : Multiset FileLock :=
  keeper.holders.bind Holder.fileLocks + keeper.loose

/-- One operation of a process on lock files in use, or a change from outside to other files. -/
inductive Step (used : Set Path) : Keeper σ → Keeper σ → Prop where
  | outside {world : World σ} {holders : Multiset Holder} {loose : Multiset FileLock}
      (files : FileSystem) (environment : Environment) (caller : σ) (wellFormed : files.WellFormed)
      (untouched : Untouched used world.files files) :
      Step used ⟨⟨world, holders⟩, loose⟩ ⟨⟨{ world with files, environment, caller }, holders⟩, loose⟩
  | created {world after : World σ} {holders : Multiset Holder} {loose : Multiset FileLock}
      {holder : Holder} (creation : Creation σ) (inUse : creation.lockFiles world ⊆ used)
      (ran : creation.run world = .ok holder after) :
      Step used ⟨⟨world, holders⟩, loose⟩ ⟨⟨after, holder ::ₘ holders⟩, loose⟩
  | refused {world after : World σ} {holders : Multiset Holder} {loose : Multiset FileLock}
      {error : Error} (creation : Creation σ) (inUse : creation.lockFiles world ⊆ used)
      (ran : creation.run world = .error error after) :
      Step used ⟨⟨world, holders⟩, loose⟩ ⟨⟨after, holders⟩, loose⟩
  /-- An operation on a hierarchy, which may fail. -/
  | operated {world after : World σ} {holders : Multiset Holder} {loose : Multiset FileLock}
      {before now : Hierarchy} (operation : Operation σ)
      (inUse : operation.lockFiles world before ⊆ used)
      (ran : stateAfter operation.run (world, before) = (after, now)) :
      Step used ⟨⟨world, .hierarchy before ::ₘ holders⟩, loose⟩
        ⟨⟨after, .hierarchy now ::ₘ holders⟩, loose⟩
  | operatedAnchored {world after : World σ} {holders : Multiset Holder} {loose : Multiset FileLock}
      {before now : Hierarchy} {target : Option String} (operation : Operation σ)
      (inUse : operation.lockFiles world before ⊆ used)
      (ran : stateAfter operation.run (world, before) = (after, now)) :
      Step used ⟨⟨world, .anchored ⟨before, target⟩ ::ₘ holders⟩, loose⟩
        ⟨⟨after, .anchored ⟨now, target⟩ ::ₘ holders⟩, loose⟩
  | intoHierarchy {world : World σ} {holders : Multiset Holder} {loose : Multiset FileLock}
      {anchored : Anchored} :
      Step used ⟨⟨world, .anchored anchored ::ₘ holders⟩, loose⟩
        ⟨⟨world, .hierarchy anchored.hierarchy ::ₘ holders⟩, loose⟩
  | dropped {world : World σ} {holders : Multiset Holder} {loose : Multiset FileLock}
      {holder : Holder} :
      Step used ⟨⟨world, holder ::ₘ holders⟩, loose⟩ ⟨⟨stateAfter holder.drop world, holders⟩, loose⟩
  | released {world : World σ} {holders : Multiset Holder} {loose : Multiset FileLock}
      {lock : DirectoryLock} :
      Step used ⟨⟨world, .directory lock ::ₘ holders⟩, loose⟩
        ⟨⟨stateAfter lock.release world, holders⟩, loose⟩
  /-- The body of an operation that runs with a hierarchy has ended. -/
  | ended {world : World σ} {holders : Multiset Holder} {loose : Multiset FileLock}
      {hierarchy : Hierarchy} :
      Step used ⟨⟨world, .hierarchy hierarchy ::ₘ holders⟩, loose⟩
        ⟨⟨(Session.closeAfter hierarchy world).2, holders⟩, loose⟩
  | cleaned {world : World σ} {holders : Multiset Holder} {loose : Multiset FileLock} (path : Path)
      (inUse : Cleanup.lockFiles path world ⊆ used) :
      Step used ⟨⟨world, holders⟩, loose⟩ ⟨⟨stateAfter (Cleanup.clean path) world, holders⟩, loose⟩
  | locked {world : World σ} {holders : Multiset Holder} {loose : Multiset FileLock} {path : Path}
      {lock : FileLock} {files : FileSystem} (path_mem : path ∈ used)
      (ran : FileLock.tryAcquire path world.files = .ok (some lock) files) :
      Step used ⟨⟨world, holders⟩, loose⟩ ⟨⟨{ world with files }, holders⟩, lock ::ₘ loose⟩
  /-- The file at a path is locked already, or it cannot be opened. -/
  | notLocked {world : World σ} {holders : Multiset Holder} {loose : Multiset FileLock} {path : Path}
      (path_mem : path ∈ used)
      (ran : ∀ lock files, FileLock.tryAcquire path world.files ≠ .ok (some lock) files) :
      Step used ⟨⟨world, holders⟩, loose⟩
        ⟨⟨{ world with files := stateAfter (FileLock.tryAcquire path) world.files }, holders⟩, loose⟩
  | removed {world : World σ} {holders : Multiset Holder} {loose : Multiset FileLock}
      {lock : FileLock} :
      Step used ⟨⟨world, holders⟩, lock ::ₘ loose⟩
        ⟨⟨{ world with files := stateAfter lock.remove world.files }, holders⟩, loose⟩
  | letGo {world : World σ} {holders : Multiset Holder} {loose : Multiset FileLock}
      {lock : FileLock} :
      Step used ⟨⟨world, holders⟩, lock ::ₘ loose⟩
        ⟨⟨{ world with files := stateAfter lock.drop world.files }, holders⟩, loose⟩
  | removedStale {world : World σ} {holders : Multiset Holder} {loose : Multiset FileLock}
      {path : Path} (path_mem : path ∈ used) :
      Step used ⟨⟨world, holders⟩, loose⟩
        ⟨⟨{ world with files := stateAfter (FileLock.removeStale path) world.files }, holders⟩, loose⟩

/-! ## What every step keeps -/

variable {used : Set Path} {before now : Keeper σ} {world : World σ} {holders : Multiset Holder}
  {loose : Multiset FileLock} {holder : Holder}

theorem live_cons (world : World σ) (holder : Holder) (holders : Multiset Holder)
    (loose : Multiset FileLock) : (⟨⟨world, holder ::ₘ holders⟩, loose⟩ : Keeper σ).live =
      holder.fileLocks + (holders.bind Holder.fileLocks + loose) := by
  simp [live, add_assoc]

theorem live_loose (world : World σ) (holders : Multiset Holder) (lock : FileLock)
    (loose : Multiset FileLock) : (⟨⟨world, holders⟩, lock ::ₘ loose⟩ : Keeper σ).live =
      lock ::ₘ (holders.bind Holder.fileLocks + loose) :=
  Multiset.add_cons _ _ _

/-- What is done to single files is nothing to the claims. -/
theorem exclusive_step (exclusive : before.Exclusive) (step : Step used before now) :
    now.Exclusive := by
  have taken {here there : Process σ} (step : Process.Step (fun _ => True) here there)
      (exclusive : here.Exclusive) : there.Exclusive := exclusive.step step
  cases step with
  | created creation inUse ran => exact taken (.created creation ran) exclusive
  | refused creation inUse ran => exact taken (.refused creation ran) exclusive
  | operated operation inUse ran => exact taken (.used operation ran) exclusive
  | operatedAnchored operation inUse ran => exact taken (.usedAnchored operation ran) exclusive
  | intoHierarchy => exact taken .intoHierarchy exclusive
  | dropped => exact exclusive.drop
  | released => exact exclusive.release
  | ended =>
      have given := Session.claims_closeAfter (exclusive.accounts rfl rfl)
      exact exclusive.without given.1 given.2
  | cleaned path => exact taken (.cleaned path) exclusive
  | outside | locked | notLocked | removed | letGo | removedStale =>
      exact ⟨exclusive.claims_eq, exclusive.distinct, exclusive.sound⟩

/-- The claims and the files are those of the holders and the live locks. -/
structure Kept (used : Set Path) (keeper : Keeper σ) : Prop where
  exclusive : keeper.Exclusive
  files : Guarded used keeper.world.files keeper.live ∧ Owned used keeper.world.files keeper.live
  proper : ∀ holder ∈ keeper.holders, holder.Proper

theorem Kept.start (wellFormed : world.files.WellFormed)
    (noLink : ∀ path ∈ used, ¬world.files.NamesLink path) (free : world.claims = [])
    (unheld : ∀ path ∈ used, ∀ identity, world.files.NamesFile path identity →
      identity ∉ world.files.held) : Kept used ⟨⟨world, 0⟩, 0⟩ where
  exclusive := .start free
  files := by
    refine ⟨Guarded.start wellFormed noLink, ?_⟩
    intro path path_mem identity named held
    exact absurd held (unheld path path_mem identity named)
  proper := by simp

/-- In a kept process each hierarchy keeps its lock files, and the rest is kept by others. -/
theorem Kept.keptIn {hierarchy : Hierarchy} (kept : Kept used ⟨⟨world, holder ::ₘ holders⟩, loose⟩)
    (lockFiles : holder.fileLocks = AreaLock.live hierarchy.openLocks) :
    Hierarchy.KeptIn (fun files live => Guarded used files live ∧ Owned used files live)
      (holders.bind Holder.fileLocks + loose) (world, hierarchy) := by
  have files := kept.files
  rw [live_cons, lockFiles] at files
  exact files

theorem proper_step (proper : ∀ holder ∈ before.holders, holder.Proper)
    (step : Step used before now) : ∀ holder ∈ now.holders, holder.Proper := by
  have inherent := AreaLock.inherent_marked σ
  cases step with
  | created creation inUse ran =>
      exact Multiset.forall_mem_cons.mpr ⟨creation.proper ran, proper⟩
  | @operated world after holders loose before now operation inUse ran =>
      rw [Multiset.forall_mem_cons] at proper ⊢
      have records := operation.records inherent proper.1 world
      rw [ran] at records
      exact ⟨records, proper.2⟩
  | @operatedAnchored world after holders loose before now target operation inUse ran =>
      rw [Multiset.forall_mem_cons] at proper ⊢
      have records := operation.records inherent proper.1 world
      rw [ran] at records
      exact ⟨records, proper.2⟩
  | intoHierarchy =>
      rw [Multiset.forall_mem_cons] at proper ⊢
      exact proper
  | dropped | released | ended => exact (Multiset.forall_mem_cons.mp proper).2
  | outside | refused | cleaned | locked | notLocked | removed | letGo | removedStale =>
      exact proper

theorem files_step (kept : Kept used before) (step : Step used before now) :
    Guarded used now.world.files now.live ∧ Owned used now.world.files now.live := by
  have custody := custody_owned used
  have files := kept.files
  cases step with
  | outside files' environment caller wellFormed untouched =>
      exact ⟨files.1.elsewhere wellFormed untouched, files.2.elsewhere untouched⟩
  | created creation inUse ran =>
      rw [live_cons]
      exact Creation.kept_ok custody kept.exclusive.distinct files inUse ran
  | refused creation inUse ran =>
      exact Creation.kept_error custody kept.exclusive.distinct files inUse ran
  | operated operation inUse ran =>
      have keptIn := operation.kept custody (kept.exclusive.accounts rfl rfl) (kept.keptIn rfl) inUse
      rw [ran] at keptIn
      rw [live_cons]
      exact keptIn.1
  | operatedAnchored operation inUse ran =>
      have keptIn := operation.kept custody (kept.exclusive.accounts rfl rfl) (kept.keptIn rfl) inUse
      rw [ran] at keptIn
      rw [live_cons]
      exact keptIn.1
  | intoHierarchy =>
      rw [live_cons] at files ⊢
      exact files
  | dropped =>
      rw [live_cons] at files
      exact Holder.kept_drop custody _ files
  | released =>
      rw [live_cons] at files
      exact DirectoryLock.kept_release custody files
  | ended => exact Session.kept_closeAfter custody (kept.keptIn rfl)
  | cleaned path inUse => exact Cleanup.kept_clean custody path files inUse
  | locked path_mem ran =>
      rw [live_loose]
      rcases custody.tryAcquire files path_mem with
        ⟨error, failed⟩ | refused | ⟨lock, after, taken, -, further, -⟩
      · simp [failed] at ran
      · simp [refused] at ran
      · rw [taken, EStateM.Result.ok.injEq, Option.some.injEq] at ran
        rw [← ran.1, ← ran.2]
        exact further
  | notLocked path_mem ran =>
      have unchanged := custody.tryAcquire_unchanged files path_mem ran
      simp only [unchanged]
      exact files
  | removed =>
      rw [live_loose] at files
      exact custody.remove files
  | letGo =>
      rw [live_loose] at files
      exact ⟨files.1.drop, files.2.drop⟩
  | removedStale path_mem => exact custody.removeStale files path_mem

theorem Kept.step (kept : Kept used before) (step : Step used before now) : Kept used now :=
  ⟨exclusive_step kept.exclusive step, files_step kept step, proper_step kept.proper step⟩

theorem Kept.run (kept : Kept used before) (run : ReflTransGen (Step used) before now) :
    Kept used now := by
  induction run with
  | refl => exact kept
  | tail _ step ih => exact ih.step step

/-! ## What comes with the locks on directories -/

/-- A lock of a hierarchy has a live lock on its lock file, which is gone when the lock is closed. -/
structure HasLockFile (keeper : Keeper σ) (hierarchy : Hierarchy) (lock : AreaLock) : Prop where
  live : ∃ file ∈ keeper.live, file.path = Area.lockFile lock.path
  closedUnder : ∀ path,
    lock ∉ (stateAfter (Hierarchy.closeLock path) (keeper.world, hierarchy)).2.openLocks →
      (stateAfter (Hierarchy.closeLock path) (keeper.world, hierarchy)).1.files.Vacant
        (Area.lockFile lock.path)
  closed : lock ∉ (stateAfter Hierarchy.close (keeper.world, hierarchy)).2.openLocks →
    (stateAfter Hierarchy.close (keeper.world, hierarchy)).1.files.Vacant (Area.lockFile lock.path)
  dropped : (stateAfter hierarchy.drop keeper.world).files.Vacant (Area.lockFile lock.path)

/-- A lock on a directory has a live lock on its lock file, which is gone when it is given back. -/
structure HoldsLockFile (keeper : Keeper σ) (lock : DirectoryLock) : Prop where
  live : ∃ file ∈ keeper.live, file.path = Area.lockFile lock.directory
  released : (stateAfter lock.release keeper.world).files.Vacant (Area.lockFile lock.directory)
  dropped : (stateAfter lock.drop keeper.world).files.Vacant (Area.lockFile lock.directory)

theorem Kept.hasLockFile {hierarchy : Hierarchy} {lock : AreaLock}
    (kept : Kept used ⟨⟨world, holder ::ₘ holders⟩, loose⟩)
    (inside : holder.hierarchy? = some hierarchy) (lock_mem : lock ∈ hierarchy.openLocks)
    (writes : lock.write = true) :
    HasLockFile ⟨⟨world, holder ::ₘ holders⟩, loose⟩ hierarchy lock := by
  rcases Hierarchy.mem_openLocks.mp lock_mem with ⟨recorded, isOpen⟩
  rcases Option.isSome_iff_exists.mp isOpen with ⟨held, held_eq⟩
  have sound := kept.exclusive.sound holder (Multiset.mem_cons_self _ _) hierarchy inside lock recorded
    held held_eq
  have marked := (kept.proper holder (Multiset.mem_cons_self _ _)).records inside lock recorded
    held held_eq
  rcases Option.isSome_iff_exists.mp (marked.trans writes) with ⟨file, file_eq⟩
  have guarded : Guarded used world.files
      (AreaLock.live hierarchy.openLocks + (holders.bind Holder.fileLocks + loose)) :=
    (kept.keptIn (Holder.fileLocks_eq inside)).1
  have path_eq := sound.file_path file file_eq
  refine ⟨⟨file, ?_, path_eq⟩, ?_, ?_, ?_⟩
  · rw [live_cons, Holder.fileLocks_eq inside]
    exact Multiset.mem_add.mpr (Or.inl (AreaLock.mem_live lock_mem held_eq file_eq))
  · intro path closed
    rw [← path_eq]
    exact Hierarchy.vacant_closeLock guarded lock_mem held_eq file_eq closed
  · intro closed
    rw [← path_eq]
    rw [Hierarchy.stateAfter_close] at closed ⊢
    exact Hierarchy.vacant_closeLock guarded lock_mem held_eq file_eq closed
  · rw [← path_eq]
    exact Hierarchy.vacant_drop guarded lock_mem held_eq file_eq

theorem Kept.holdsLockFile {lock : DirectoryLock}
    (kept : Kept used ⟨⟨world, .directory lock ::ₘ holders⟩, loose⟩) (writes : lock.isWrite = true) :
    HoldsLockFile ⟨⟨world, .directory lock ::ₘ holders⟩, loose⟩ lock := by
  rcases Option.isSome_iff_exists.mp writes with ⟨file, file_eq⟩
  have own : lock.fileLocks = {file} := by simp [DirectoryLock.fileLocks, file_eq]
  have guarded := kept.files.1
  rw [live_cons, Holder.fileLocks, own, Multiset.singleton_add] at guarded
  have isFor : lock.IsFor lock.directory := kept.proper _ (Multiset.mem_cons_self _ _)
  have path_eq := isFor.file_path file file_eq
  have vacant : (stateAfter lock.release world).files.Vacant (Area.lockFile lock.directory) := by
    rw [← path_eq]
    apply guarded.vacant_of_kept (Multiset.Subset.refl _)
    intro keeps custody keptBefore
    apply DirectoryLock.kept_release custody
    rw [own, Multiset.singleton_add]
    exact keptBefore
  refine ⟨⟨file, ?_, path_eq⟩, vacant, ?_⟩
  · rw [live_cons, Holder.fileLocks, own]
    exact Multiset.mem_add.mpr (Or.inl (Multiset.mem_singleton_self file))
  · rw [DirectoryLock.stateAfter_drop]
    exact vacant

/--
In every state that a process reaches, each live lock has a file of its own at its own path, and a lock file
in use tells of the live locks, whether it is looked at, locked or removed as stale. What is locked for
writing in a hierarchy or as a single directory has a live lock on its lock file, and giving the lock back
removes that file.
-/
theorem lock_files_tell_locks {start : World σ} {keeper : Keeper σ}
    (wellFormed : start.files.WellFormed) (noLink : ∀ path ∈ used, ¬start.files.NamesLink path)
    (free : start.claims = [])
    (unheld : ∀ path ∈ used, ∀ identity, start.files.NamesFile path identity →
      identity ∉ start.files.held)
    (run : ReflTransGen (Step used) ⟨⟨start, 0⟩, 0⟩ keeper) :
    (keeper.live.map FileLock.identity).Nodup ∧
    (∀ lock ∈ keeper.live, keeper.world.files.NamesFile lock.path lock.identity) ∧
    (∀ path ∈ used, keeper.world.files.Reports keeper.live path) ∧
    (∀ directory, Area.lockFile directory ∈ used → keeper.world.files.isVersioned directory = true →
      (keeper.world.files.isWriteLocked directory = .ok true ↔
        keeper.world.files.IsLocked keeper.live (Area.lockFile directory))) ∧
    (∀ holder ∈ keeper.holders, ∀ hierarchy, holder.hierarchy? = some hierarchy →
      ∀ lock ∈ hierarchy.openLocks, lock.write = true → keeper.HasLockFile hierarchy lock) ∧
    (∀ lock, .directory lock ∈ keeper.holders → lock.isWrite = true → keeper.HoldsLockFile lock) ∧
    ∀ directory write lock after,
      DirectoryLock.acquire directory write keeper.world = .ok lock after → lock.isWrite = write := by
  have kept := (Kept.start wellFormed noLink free unheld).run run
  have tells : ∀ path ∈ used, keeper.world.files.Reports keeper.live path :=
    fun path path_mem => FileSystem.reports kept.files.1 kept.files.2 path_mem
  rcases keeper with ⟨⟨world, holders⟩, loose⟩
  refine ⟨kept.files.1.distinct, kept.files.1.placed, tells, ?_, ?_, ?_, ?_⟩
  · intro directory path_mem versioned
    rw [FileSystem.isWriteLocked, if_pos versioned]
    exact (tells _ path_mem).held
  · intro holder live hierarchy inside lock lock_mem writes
    rcases Multiset.exists_cons_of_mem live with ⟨rest, rfl⟩
    exact kept.hasLockFile inside lock_mem writes
  · intro lock live writes
    rcases Multiset.exists_cons_of_mem live with ⟨rest, rfl⟩
    exact kept.holdsLockFile writes
  · intro directory write lock after acquired
    exact DirectoryLock.isWrite_acquire acquired

/-- The lock file of a working copy that was opened for writing is seen to be locked, and is gone when the
hierarchy is dropped. -/
theorem lock_files_tell_locks_of_opening :
    ∃ (keeper : Keeper Unit) (hierarchy : Hierarchy),
      ReflTransGen (Step Set.univ) ⟨⟨Process.singleCopy, 0⟩, 0⟩ keeper ∧
      .hierarchy hierarchy ∈ keeper.holders ∧
      keeper.world.files.isHeldAt ⟨"/wc/.svn/lock"⟩ = .ok true ∧
      (stateAfter hierarchy.drop keeper.world).files.Vacant ⟨"/wc/.svn/lock"⟩ := by
  rcases ok_of_yields (Hierarchy.openAt none true .infinity ⟨"/wc"⟩) Process.singleCopy
    (fun made => made.openLocks.any fun lock => lock.path = ⟨"/wc"⟩ && lock.write)
    (by decide +kernel) with ⟨hierarchy, opened, checked⟩
  rcases List.any_eq_true.mp checked with ⟨lock, lock_mem, described⟩
  rw [Bool.and_eq_true, decide_eq_true_eq] at described
  have run : ReflTransGen (Step Set.univ) ⟨⟨Process.singleCopy, 0⟩, 0⟩ ⟨⟨_, .hierarchy hierarchy ::ₘ 0⟩, 0⟩ :=
    .single (.created (.openAt none true .infinity ⟨"/wc"⟩) (Set.subset_univ _)
      (Action.map_eq_ok.mpr ⟨hierarchy, opened, rfl⟩))
  rcases lock_files_tell_locks Process.wellFormed_singleCopy (fun path _ => Process.noLink_singleCopy path)
    rfl (by simp [Process.singleCopy]) run with ⟨-, placed, reports, -, covered, -⟩
  have live : Holder.hierarchy hierarchy ∈ (Holder.hierarchy hierarchy ::ₘ 0 : Multiset Holder) :=
    Multiset.mem_cons_self _ _
  have hasLockFile := covered _ live hierarchy rfl lock lock_mem described.2
  rcases hasLockFile.live with ⟨file, file_mem, path_eq⟩
  have there : Area.lockFile lock.path = ⟨"/wc/.svn/lock"⟩ := by
    rw [described.1]
    decide +kernel
  have named := placed file file_mem
  have dropped := hasLockFile.dropped
  rw [path_eq, there] at named
  rw [there] at dropped
  exact ⟨_, hierarchy, run, live, (reports _ (Set.mem_univ _)).held.mpr ⟨file, file_mem, named⟩, dropped⟩

end Keeper

end Checkout
