import Checkout.Proofs.Lock.Accounts
import Checkout.Proofs.Lock.WellFormed
import Checkout.Proofs.WorkingCopy.Children

/-!
# Locks lie under their root

A tree is locked from its root downwards, so a hierarchy has locks only at and below its root, whatever
is opened in it later. While it does, closing it closes everything if and only if the canonical form of
its root is still the root: otherwise the lock on the root is not found.
-/

namespace Checkout

variable {σ : Type}

open Relation (ReflTransGen)

namespace Descent

variable {cancel : Option (Cancellation σ)} {write : Bool}

/-- A descent that stays under `root`, in a well-formed file system. -/
structure Under (root : Path) (descent : Descent σ) : Prop where
  wellFormed : descent.world.files.WellFormed
  pending : ∀ task ∈ descent.pending,
    task.directory.isAbsolute = true ∧ task.directory.isUnder root = true
  taken : ∀ lock ∈ descent.taken, lock.path.isUnder root = true

theorem below_under {root : Path} {files : FileSystem} {task child : Task} {children : List Task}
    (wellFormed : files.WellFormed) (absolute : task.directory.isAbsolute = true)
    (under : task.directory.isUnder root = true) (listed : task.below files = .ok children)
    (child_mem : child ∈ children) :
    child.directory.isAbsolute = true ∧ child.directory.isUnder root = true := by
  simp only [Task.below] at listed
  split at listed
  · rw [Except.ok.injEq] at listed
    simp [← listed] at child_mem
  · split at listed
    · rename_i directories found
      rw [Except.ok.injEq] at listed
      rw [← listed] at child_mem
      obtain ⟨directory, directory_mem, rfl⟩ := List.mem_map.mp child_mem
      obtain ⟨name, proper, rfl⟩ := wellFormed.child_eq_join found directory_mem
      exact ⟨Path.isAbsolute_join proper absolute,
        Path.isUnder_trans (Path.isUnder_join proper absolute) under⟩
    · simp at listed

theorem Under.step {root : Path} {here next : Descent σ} (under : Under root here)
    (step : Step cancel write here next) : Under root next := by
  cases step with
  | skip exhausted =>
      exact ⟨under.wellFormed, fun task task_mem => under.pending task (List.mem_cons_of_mem _ task_mem),
        under.taken⟩
  | claim task more polled acquired listed =>
      have wellFormed := AreaLock.keepsFiles_acquire.ok
        (AreaLock.keepsFiles_poll.ok under.wellFormed polled) acquired
      obtain ⟨absolute, inside⟩ := under.pending task List.mem_cons_self
      refine ⟨wellFormed, ?_, ?_⟩
      · intro other other_mem
        rcases List.mem_append.mp other_mem with new | old
        · exact below_under wellFormed absolute inside listed new
        · exact under.pending other (List.mem_cons_of_mem _ old)
      · intro other other_mem
        rcases List.mem_cons.mp other_mem with rfl | older
        · obtain ⟨-, held, -, rfl⟩ := AreaLock.acquire_ok acquired
          exact inside
        · exact under.taken other older

theorem Under.steps {root : Path} {here next : Descent σ} (under : Under root here)
    (down : ReflTransGen (Step cancel write) here next) : Under root next := by
  induction down with
  | refl => exact under
  | tail _ step ih => exact ih.step step

/-- The locks of a tree lie at and below its root. -/
theorem under_lockTree {root directory : Path} {depth : Depth} {world after : World σ}
    {locks : List AreaLock} (wellFormed : world.files.WellFormed)
    (absolute : directory.isAbsolute = true) (under : directory.isUnder root = true)
    (ran : AreaLock.lockTree cancel write depth directory world = .ok locks after) :
    ∀ lock ∈ locks, lock.path.isUnder root = true := by
  have start : Under root ⟨world, [Task.whole world.files depth directory], []⟩ :=
    ⟨wellFormed, by simpa [Task.whole] using ⟨absolute, under⟩, by simp⟩
  intro lock lock_mem
  exact (start.steps (lockTree_ok ran)).taken lock (List.mem_reverse.mpr lock_mem)

end Descent

theorem Path.isUnder_congr {path other top : Path} (same : path.same other = true) :
    path.isUnder top = other.isUnder top := by
  simp only [Path.same, decide_eq_true_eq] at same
  simp only [Path.isUnder, same]

theorem Path.isUnder_antisymm {path other : Path} (below : path.isUnder other = true)
    (above : other.isUnder path = true) : path.same other = true := by
  simp only [Path.isUnder, List.isPrefixOf_iff_prefix] at below above
  simpa [Path.same] using above.eq_of_length_le below.length_le

namespace Hierarchy

variable {cancel : Option (Cancellation σ)} {write : Bool} {depth : Depth} {path : Path}
  {world after : World σ} {hierarchy : Hierarchy} {others : Multiset (List Component)}

/-- The root is an absolute path, and all locks lie at or below it. -/
structure Rooted (hierarchy : Hierarchy) : Prop where
  absolute : hierarchy.root.isAbsolute = true
  under : ∀ lock ∈ hierarchy.locks, lock.path.isUnder hierarchy.root = true

theorem Rooted.insertAll {locks : List AreaLock} (rooted : hierarchy.Rooted)
    (under : ∀ lock ∈ locks, lock.path.isUnder hierarchy.root = true) :
    (hierarchy.insertAll locks).Rooted := by
  refine ⟨by rw [root_insertAll]; exact rooted.absolute, ?_⟩
  intro lock recorded
  rw [root_insertAll]
  rcases mem_of_mem_insertAll recorded with new | ⟨old, -⟩
  · exact under lock new
  · exact rooted.under lock old

theorem rooted_openAt (wellFormed : world.files.WellFormed)
    (opened : openAt cancel write depth path world = .ok hierarchy after) : hierarchy.Rooted := by
  obtain ⟨root, locks, canonical, ran, rfl⟩ := openAt_ok opened
  have absolute := FileSystem.isAbsolute_canonical canonical
  have empty : (⟨root, []⟩ : Hierarchy).Rooted := ⟨absolute, by simp⟩
  exact empty.insertAll (Descent.under_lockTree wellFormed absolute (Path.isUnder_refl root) ran)

theorem rooted_probeOpen (wellFormed : world.files.WellFormed)
    (opened : probeOpen cancel write depth path world = .ok hierarchy after) :
    hierarchy.Rooted := by
  rcases probeOpen_apply cancel write depth path world with ⟨-, error, refused⟩ | ⟨depth', other, -, same⟩
  · rw [refused] at opened
    simp at opened
  · rw [same] at opened
    exact rooted_openAt wellFormed opened

theorem Rooted.openChild (rooted : hierarchy.Rooted) (wellFormed : world.files.WellFormed)
    (cancel : Option (Cancellation σ)) (write : Bool) (depth : Depth) (path : Path) :
    (stateAfter (Hierarchy.openChild cancel write depth path) (world, hierarchy)).2.Rooted := by
  rcases stateAfter_openChild cancel write depth path world hierarchy with
    ⟨unchanged, -⟩ | ⟨real, error, failed, -, -, ran, same⟩ | ⟨real, locks, last, canonical, accepts, ran, same⟩
  · rw [unchanged]
    exact rooted
  · rw [same]
    exact rooted
  · rw [same]
    exact rooted.insertAll
      (Descent.under_lockTree wellFormed (FileSystem.isAbsolute_canonical canonical) accepts.under ran)

theorem Rooted.probeTry (rooted : hierarchy.Rooted) (wellFormed : world.files.WellFormed)
    (cancel : Option (Cancellation σ)) (write : Bool) (depth : Depth) (path : Path) :
    (stateAfter (Hierarchy.probeTry cancel write depth path) (world, hierarchy)).2.Rooted := by
  rcases probeTry_apply cancel write depth path world hierarchy with
    ⟨unchanged, -⟩ | ⟨depth', directory, -, -, same⟩
  · rw [unchanged]
    exact rooted
  · rw [stateAfter, same]
    exact rooted.openChild wellFormed cancel write depth' directory

theorem Rooted.closedUnder (rooted : hierarchy.Rooted) (path : Path) :
    (hierarchy.closedUnder path).Rooted := by
  refine ⟨rooted.absolute, ?_⟩
  intro lock recorded
  obtain ⟨older, older_mem, rfl⟩ := List.mem_map.mp recorded
  have under := rooted.under older older_mem
  split
  · exact under
  · exact under

theorem Rooted.closeLock (rooted : hierarchy.Rooted) (path : Path) :
    (stateAfter (Hierarchy.closeLock path) (world, hierarchy)).2.Rooted := by
  rw [stateAfter_closeLock]
  split
  · exact rooted
  · split
    · exact rooted.closedUnder _
    · exact rooted

theorem Rooted.close (rooted : hierarchy.Rooted) :
    (stateAfter Hierarchy.close (world, hierarchy)).2.Rooted := by
  rw [stateAfter_close]
  exact rooted.closeLock hierarchy.root

/-- The open lock on the root of a hierarchy. -/
theorem exists_of_isRootOpen (rootOpen : hierarchy.isRootOpen = true) :
    ∃ lock ∈ hierarchy.openLocks, lock.path.same hierarchy.root = true := by
  simp only [isRootOpen, rootLock?, Option.any_eq_true] at rootOpen
  obtain ⟨lock, found, isOpen⟩ := rootOpen
  obtain ⟨recorded, same⟩ := find?_eq_some found
  exact ⟨lock, mem_openLocks.mpr ⟨recorded, isOpen⟩, same⟩

/-- When the root is found under its own path, closing the hierarchy closes every lock. -/
theorem Rooted.close_all (rooted : hierarchy.Rooted)
    (accounts : Accounts others (world, hierarchy)) (rootOpen : hierarchy.isRootOpen = true)
    {real : Path} (canonical : world.files.canonical hierarchy.root = .ok real)
    (same : real.same hierarchy.root = true) :
    (stateAfter Hierarchy.close (world, hierarchy)).2.openLocks = [] ∧
      ∀ lock ∈ hierarchy.openLocks,
        lock.key ∉ (stateAfter Hierarchy.close (world, hierarchy)).1.claims := by
  have root_eq : hierarchy.root.components = real.components := by
    simpa [Path.same, eq_comm] using same
  have allUnder : ∀ lock ∈ hierarchy.openLocks, lock.path.isUnder real = true := by
    intro lock lock_mem
    have under := rooted.under lock (mem_openLocks.mp lock_mem).1
    simpa only [Path.isUnder, root_eq] using under
  have found : (hierarchy.find? real).isSome = true := by
    obtain ⟨lock, lock_mem, lock_root⟩ := exists_of_isRootOpen rootOpen
    rw [find?, List.find?_isSome]
    refine ⟨lock, (mem_openLocks.mp lock_mem).1, ?_⟩
    simpa only [Path.same, root_eq] using lock_root
  rw [stateAfter_close, stateAfter_closeLock]
  simp only [canonical, found, if_true]
  refine ⟨?_, ?_⟩
  · rw [openLocks_closedUnder, List.filter_eq_nil_iff]
    intro lock lock_mem
    simp [allUnder lock lock_mem]
  · intro lock lock_mem claimed
    have given := (accounts.closedUnder real).claims_eq
    have undone := AreaLock.claims_giveBack (hierarchy.openUnder real).reverse
      (by
        intro other other_mem
        have other_open := (List.mem_filter.mp (List.mem_reverse.mp other_mem)).1
        exact accounts.sound other (mem_openLocks.mp other_open).1)
      (by
        intro other other_mem
        have other_open := (List.mem_filter.mp (List.mem_reverse.mp other_mem)).1
        exact (mem_openLocks.mp other_open).2)
      world
    rw [undone, List.mem_filter] at claimed
    have mine : lock ∈ hierarchy.openUnder real :=
      List.mem_filter.mpr ⟨lock_mem, allUnder lock lock_mem⟩
    have listed := List.mem_map_of_mem (f := AreaLock.key) (List.mem_reverse.mpr mine)
    exact of_decide_eq_true claimed.2 listed

/-- When the root is not found under its own path, its lock stays open. -/
theorem Rooted.root_stays_open (rooted : hierarchy.Rooted) (rootOpen : hierarchy.isRootOpen = true)
    (moved : ∀ real, world.files.canonical hierarchy.root = .ok real →
      real.same hierarchy.root = false) :
    (stateAfter Hierarchy.close (world, hierarchy)).2.openLocks ≠ [] := by
  obtain ⟨lock, lock_mem, lock_root⟩ := exists_of_isRootOpen rootOpen
  have nonempty : hierarchy.openLocks ≠ [] := List.ne_nil_of_mem lock_mem
  rw [stateAfter_close, stateAfter_closeLock]
  split
  · exact nonempty
  · rename_i real canonical
    split
    · rename_i found
      obtain ⟨other, other_found⟩ := Option.isSome_iff_exists.mp found
      obtain ⟨other_mem, other_real⟩ := find?_eq_some other_found
      have other_under := rooted.under other other_mem
      rw [Path.isUnder_congr other_real] at other_under
      simp only [openLocks_closedUnder]
      apply List.ne_nil_of_mem (a := lock)
      refine List.mem_filter.mpr ⟨lock_mem, ?_⟩
      -- the record that was found lies below the root, so the root does not lie below it
      have apart : hierarchy.root.isUnder real = false := by
        by_contra inside
        rw [Bool.not_eq_false] at inside
        have same := Path.isUnder_antisymm other_under inside
        rw [moved real canonical] at same
        exact Bool.false_ne_true same
      rw [Path.isUnder_congr lock_root, apart]
      rfl
    · exact nonempty

end Hierarchy

namespace Anchored

variable {cancel : Option (Cancellation σ)} {write : Bool} {depth : Depth} {path : Path}
  {world after : World σ}

theorem rooted_openAnchor {anchored : Anchored} (wellFormed : world.files.WellFormed)
    (opened : openAnchor cancel write depth path world = .ok anchored after) :
    anchored.hierarchy.Rooted := by
  rcases openAnchor_ok opened with
    ⟨anchor, -, ran⟩ | ⟨anchor, target, hierarchy, middle, -, ran, ⟨-, child⟩ | ⟨rfl, same⟩⟩
  · exact Hierarchy.rooted_openAt wellFormed ran
  · have middleWellFormed := Hierarchy.keepsFiles_openAt.ok wellFormed ran
    have rooted := (Hierarchy.rooted_openAt wellFormed ran).openChild middleWellFormed cancel write
      depth (anchor.join target)
    rw [child] at rooted
    exact rooted
  · rw [same]
    exact Hierarchy.rooted_openAt wellFormed ran

end Anchored

end Checkout
