import Checkout.Proofs.FileSystem.Parents
import Checkout.Proofs.Lock.InOrder
import Checkout.Proofs.Lock.Opening

/-!
# Probing with and without a hierarchy

A probe locks the nearest versioned directory at or above a path. Within a hierarchy it locks the tree that
it would lock on its own, at the same depth, unless the path is a directory that is not versioned: then it
locks the directory above alone, however deep it was asked to go.
-/

namespace Checkout

variable {σ : Type}

namespace AreaLock

/-- What a lock was opened for: a directory, for writing or not, and a depth. -/
def terms (lock : AreaLock) : Path × Bool × Depth :=
  (lock.path, lock.write, lock.depth)

/-- To lock a directory alone, the caller is asked once. -/
theorem lockTree_single {cancel : Option (Cancellation σ)} {write : Bool} {path : Path}
    {world asked after : World σ} {lock : AreaLock} (polled : poll cancel world = .ok () asked)
    (acquired : acquire path write .empty asked = .ok lock after) :
    lockTree cancel write .empty path world = .ok [lock] after := by
  simp [lockTree, lockLevels, polled, acquired, Depth.child?]

end AreaLock

namespace FileSystem

variable {files : FileSystem} {path real nearest : Path}

/-- The canonical form of a versioned path is canonical. -/
theorem canonical_idem (wellFormed : files.WellFormed) (absolute : path.isAbsolute = true)
    (versioned : files.isVersioned path = true) (canonical : files.canonical path = .ok real) :
    files.canonical real = .ok real := by
  obtain ⟨location, found⟩ := entry_of_isVersioned absolute versioned
  rw [canonical_of_entry found, Except.ok.injEq] at canonical
  rw [← canonical]
  exact canonical_path wellFormed (resolve_sound wellFormed (entry_eq_ok.mp found)) (by simp)

/-- The nearest versioned directory is the path itself if and only if the path is versioned. -/
theorem nearest_same_iff (absolute : path.isAbsolute = true)
    (above : files.nearestVersioned? path = some nearest) :
    nearest.same path = true ↔ files.isVersioned path = true := by
  rw [nearestVersioned?_eq absolute] at above
  cases versioned : files.isVersioned path with
  | true =>
      rw [versioned, if_pos rfl, Option.some.injEq] at above
      simp [above, Path.same]
  | false =>
      rw [versioned, if_neg Bool.false_ne_true] at above
      obtain ⟨parent, parent_eq, nearest_eq⟩ := Option.bind_eq_some_iff.mp above
      obtain ⟨last, components_eq⟩ := Path.components_parent? absolute parent_eq
      have under := Path.isUnder_of_mem_ancestors (Path.isAbsolute_parent? absolute parent_eq)
        (List.mem_of_find?_eq_some nearest_eq)
      -- what is at or above the parent has fewer components than the path
      rw [Path.isUnder, List.isPrefixOf_iff_prefix] at under
      have shorter := under.length_le
      simp only [Path.same, decide_eq_true_eq, Bool.false_eq_true, iff_false]
      intro same
      rw [same, components_eq, List.length_append, List.length_singleton] at shorter
      omega

end FileSystem

namespace Hierarchy

variable {cancel : Option (Cancellation σ)} {write : Bool} {depth : Depth} {path real nearest top : Path}
  {world after : World σ} {hierarchy : Hierarchy} {others : Multiset (List Component)}
  {locks : List AreaLock} {error : Error}

/-! ## Opening the tree of a versioned directory -/

/-- A directory that is not claimed has no open lock. -/
theorem Accounts.unlocked (accounts : Accounts others (world, hierarchy))
    (canonical : world.files.canonical path = .ok top) (free : world.isClaimed top = false) :
    hierarchy.isLocked world.files path = false := by
  cases found : hierarchy.find? top with
  | none => simp [isLocked, get?, canonical, found]
  | some lock =>
      obtain ⟨recorded, same⟩ := find?_eq_some found
      simp only [isLocked, get?, canonical, found, Option.any_some]
      by_contra isOpen
      rw [Bool.not_eq_false] at isOpen
      have claimed := accounts.key_mem (mem_openLocks.mpr ⟨recorded, isOpen⟩)
      have key_eq : lock.key = top.components := by simpa [Path.same, AreaLock.key] using same
      rw [key_eq, ← World.isClaimed_iff, free] at claimed
      exact Bool.false_ne_true claimed

theorem openChild_of_lockTree (wellFormed : world.files.WellFormed)
    (canonical : world.files.canonical path = .ok top) (steady : world.files.canonical top = .ok top)
    (accepts : hierarchy.Accepts world.files top)
    (ran : AreaLock.lockTree cancel write depth top world = .ok locks after) :
    ∃ lock, openChild cancel write depth path (world, hierarchy) =
      .ok lock (after, hierarchy.insertAll locks) := by
  rw [openChild_apply, canonical]
  simp only [accepts.under, accepts.rootOpen, accepts.unlocked, ran, Bool.not_true, Bool.false_eq_true,
    if_false]
  cases found : (hierarchy.insertAll locks).retrieve after.files top with
  | ok lock => exact ⟨lock, rfl⟩
  | error failure =>
      have again : after.files.canonical top = .ok top := by
        rw [FileSystem.canonical_congr (FileSystem.isAbsolute_canonical canonical)
          (isVersioned_lockTree ran) (Descent.sameTree_lockTree wellFormed ran)]
        exact steady
      have moved := moved_of_retrieve_error ran found again
      simp [Path.same] at moved

theorem openChild_of_lockTree_error (canonical : world.files.canonical path = .ok top)
    (accepts : hierarchy.Accepts world.files top)
    (ran : AreaLock.lockTree cancel write depth top world = .error error after) :
    openChild cancel write depth path (world, hierarchy) = .error error (after, hierarchy) := by
  rw [openChild_apply, canonical]
  simp only [accepts.under, accepts.rootOpen, accepts.unlocked, ran, Bool.not_true, Bool.false_eq_true,
    if_false]

/-- If a directory can be locked with what is below it, it can be locked alone. -/
theorem lockTree_alone (ran : AreaLock.lockTree cancel write depth top world = .ok locks after) :
    ∃ lock alone, AreaLock.lockTree cancel write .empty top world = .ok [lock] alone ∧
      lock.terms = (top, write, .empty) := by
  obtain ⟨asked, locked, lock, polled, acquired, -⟩ := Descent.lockTree_top ran
  obtain ⟨versioned, held, held_eq, rfl⟩ := AreaLock.acquire_ok acquired
  have acquiredAlone : AreaLock.acquire top write .empty asked =
      .ok { path := top, write, depth := .empty, held := some held } locked := by
    rw [AreaLock.acquire_apply, if_pos versioned, held_eq]
  exact ⟨_, locked, AreaLock.lockTree_single polled acquiredAlone, rfl⟩

/-- The locks of a tree that was opened are those that were locked. -/
theorem openLocks_of_lockTree (ran : AreaLock.lockTree cancel write depth top world = .ok locks after) :
    (insertAll { root := top, locks := [] } locks).openLocks.Perm locks := by
  have ledger := Descent.ledger_lockTree ran
  have entered := @openLocks_insertAll { root := top, locks := [] } locks (by simpa using ledger.allOpen)
    (by simpa using ledger.distinct) (by simp [openLocks])
  simpa [openLocks] using entered

/-- The directory at the top of a tree is locked at the depth of the tree. -/
theorem top_mem_terms (ran : AreaLock.lockTree cancel write depth top world = .ok locks after) :
    (top, write, depth) ∈ locks.map AreaLock.terms := by
  obtain ⟨_, _, lock, -, acquired, lock_mem⟩ := Descent.lockTree_top ran
  obtain ⟨-, _, -, rfl⟩ := AreaLock.acquire_ok acquired
  exact List.mem_map_of_mem lock_mem

/-- A child that is opened adds the locks of its tree. -/
theorem Accounts.openChild_adds (accounts : Accounts others (world, hierarchy))
    (wellFormed : world.files.WellFormed) (canonical : world.files.canonical path = .ok top)
    (steady : world.files.canonical top = .ok top) (accepts : hierarchy.Accepts world.files top)
    (ran : AreaLock.lockTree cancel write depth top world = .ok locks after) :
    ∃ lock, Hierarchy.openChild cancel write depth path (world, hierarchy) =
        .ok lock (after, hierarchy.insertAll locks) ∧
      (hierarchy.insertAll locks).openLocks.Perm (locks ++ hierarchy.openLocks) := by
  obtain ⟨lock, opened⟩ := openChild_of_lockTree wellFormed canonical steady accepts ran
  exact ⟨lock, opened, accounts.openLocks_insertAll (Descent.ledger_lockTree ran)⟩

/-! ## The two probes -/

/-- The tree that a probe in a hierarchy locks. -/
theorem probeTry_eq (cancel : Option (Cancellation σ)) (write : Bool) (depth : Depth)
    (canonical : world.files.canonical path = .ok real)
    (above : world.files.nearestVersioned? real = some nearest)
    (unlocked : hierarchy.isLocked world.files nearest = false) :
    probeTry cancel write depth path (world, hierarchy) =
      openChild cancel write (if world.files.isVersioned real then depth else .empty) nearest
        (world, hierarchy) := by
  have same_iff := FileSystem.nearest_same_iff (FileSystem.isAbsolute_canonical canonical) above
  have depth_eq : (if nearest.same real then depth else .empty) =
      if world.files.isVersioned real then depth else Depth.empty := by
    simp only [same_iff]
  rcases probeTry_apply cancel write depth path world hierarchy with
    ⟨-, locked⟩ | ⟨depth', directory, target, -, same⟩
  · have target : childTarget world.files depth path =
        some (if nearest.same real then depth else .empty, nearest) := by
      simp [childTarget, canonical, above]
    rw [locked _ _ target] at unlocked
    simp at unlocked
  · simp only [childTarget, canonical, above, Option.map_some, Option.some.injEq, Prod.mk.injEq]
      at target
    obtain ⟨rfl, rfl⟩ := target
    rw [same, depth_eq]

/-- A probe in a hierarchy locks as deep as one on its own, or is not asked to go deep. -/
def ProbesAlike (files : FileSystem) (depth : Depth) (real : Path) : Prop :=
  files.isVersioned real = true ∨ files.isDirectory real = false ∨ depth = .empty

theorem ProbesAlike.depth_eq {files : FileSystem} (alike : ProbesAlike files depth real) :
    (if files.isVersioned real then depth else .empty) =
      if files.isVersioned real ∨ files.isDirectory real then depth else .empty := by
  rcases alike with versioned | plain | rfl
  · simp [versioned]
  · simp [plain]
  · simp

theorem not_probesAlike {files : FileSystem} (differ : ¬ProbesAlike files depth real) :
    files.isVersioned real = false ∧ files.isDirectory real = true ∧ depth ≠ .empty := by
  simpa [ProbesAlike] using differ

/-- What a probe on its own comes to. -/
theorem probeOpen_eq (cancel : Option (Cancellation σ)) (write : Bool) (depth : Depth)
    (canonical : world.files.canonical path = .ok real)
    (above : world.files.nearestVersioned? real = some nearest)
    (canonicalAbove : world.files.canonical nearest = .ok top) :
    probeOpen cancel write depth path world =
      match AreaLock.lockTree cancel write
          (if world.files.isVersioned real ∨ world.files.isDirectory real then depth else .empty)
          top world with
      | .ok locks after => .ok (insertAll { root := top, locks := [] } locks) after
      | .error error after => .error error after :=
  Opener.run_eq cancel write (.probing canonical above canonicalAbove)

/--
Where probing on its own succeeds, so does probing in a hierarchy in which the directory to be locked is
free. It adds locks for the same directories, with the same depths and modes, exactly if the path is versioned,
is no directory, or nothing below is asked for; in the remaining case it adds one lock, of depth empty. And
where both lock alike, a failure is the same as well and adds nothing.
-/
theorem probeTry_adds (wellFormed : world.files.WellFormed)
    (accounts : Accounts others (world, hierarchy)) (rootOpen : hierarchy.isRootOpen = true)
    (canonical : world.files.canonical path = .ok real)
    (above : world.files.nearestVersioned? real = some nearest)
    (canonicalAbove : world.files.canonical nearest = .ok top)
    (under : top.isUnder hierarchy.root = true) (free : world.isClaimed top = false) :
    (∀ probed last, probeOpen cancel write depth path world = .ok probed last →
      ∃ lock after left added,
        probeTry cancel write depth path (world, hierarchy) = .ok lock (after, left) ∧
        left.openLocks.Perm (added ++ hierarchy.openLocks) ∧
        ((added.map AreaLock.terms).Perm (probed.openLocks.map AreaLock.terms) ↔
          ProbesAlike world.files depth real) ∧
        (¬ProbesAlike world.files depth real →
          added.map AreaLock.terms = [(top, write, .empty)])) ∧
    ∀ error last, probeOpen cancel write depth path world = .error error last →
      ProbesAlike world.files depth real →
        probeTry cancel write depth path (world, hierarchy) = .error error (last, hierarchy) := by
  obtain ⟨absolute, versioned⟩ :=
    FileSystem.nearestVersioned?_eq_some (FileSystem.isAbsolute_canonical canonical) above
  have steady := FileSystem.canonical_idem wellFormed absolute versioned canonicalAbove
  have accepts : hierarchy.Accepts world.files top := ⟨under, rootOpen, accounts.unlocked steady free⟩
  have tries :=
    probeTry_eq cancel write depth canonical above (accounts.unlocked canonicalAbove free)
  have opens := probeOpen_eq cancel write depth canonical above canonicalAbove
  refine ⟨?_, ?_⟩
  · intro probed last opened
    rw [opens] at opened
    cases ran : AreaLock.lockTree cancel write
        (if world.files.isVersioned real ∨ world.files.isDirectory real then depth else .empty)
        top world with
    | error error failed => simp [ran] at opened
    | ok locks after =>
        simp only [ran, EStateM.Result.ok.injEq] at opened
        obtain ⟨rfl, rfl⟩ := opened
        have probed_terms := (openLocks_of_lockTree ran).map AreaLock.terms
        by_cases alike : ProbesAlike world.files depth real
        · rw [← alike.depth_eq] at ran
          obtain ⟨lock, tried, added⟩ :=
            accounts.openChild_adds wellFormed canonicalAbove steady accepts ran
          exact ⟨lock, after, _, locks, tries.trans tried, added,
            ⟨fun _ => alike, fun _ => probed_terms.symm⟩, fun differ => absurd alike differ⟩
        · obtain ⟨notVersioned, isDirectory, deep⟩ := not_probesAlike alike
          rw [if_neg (by simp [notVersioned])] at tries
          rw [if_pos (Or.inr isDirectory)] at ran
          obtain ⟨alone, locked, ranAlone, alone_terms⟩ := lockTree_alone ran
          obtain ⟨lock, tried, added⟩ :=
            accounts.openChild_adds wellFormed canonicalAbove steady accepts ranAlone
          refine ⟨lock, locked, _, [alone], tries.trans tried, added, ?_, fun _ => by simp [alone_terms]⟩
          -- on its own, the probe locks the directory at the depth asked for
          refine iff_of_false ?_ alike
          intro same
          have listed := (same.trans probed_terms).mem_iff.mpr (top_mem_terms ran)
          rw [List.map_singleton, alone_terms, List.mem_singleton] at listed
          exact deep (congrArg (fun terms => terms.2.2) listed)
  · intro error last refused alike
    rw [opens, ← alike.depth_eq] at refused
    cases ran : AreaLock.lockTree cancel write
        (if world.files.isVersioned real then depth else .empty) top world with
    | ok locks after => simp [ran] at refused
    | error failure failed =>
        simp only [ran, EStateM.Result.error.injEq] at refused
        obtain ⟨rfl, rfl⟩ := refused
        exact tries.trans (openChild_of_lockTree_error canonicalAbove accepts ran)

/-! ### A directory that is not versioned -/

/-- A working copy in which `sub` has a versioned directory and one that is not. The top is locked. -/
def plainCopy : World Unit where
  files := {
    nodes := [(["wc"], .directory), (["wc", ".svn"], .directory),
      (["wc", ".svn", "entries"], .file 0), (["wc", "sub"], .directory),
      (["wc", "sub", ".svn"], .directory), (["wc", "sub", ".svn", "entries"], .file 1),
      (["wc", "sub", "inner"], .directory), (["wc", "sub", "inner", ".svn"], .directory),
      (["wc", "sub", "inner", ".svn", "entries"], .file 2), (["wc", "sub", "plain"], .directory)]
    contents := []
    nextFile := 3
    held := []
    current := [] }
  claims := [[.root, .name "wc"]]
  environment := default
  caller := ()

theorem wellFormed_plainCopy : plainCopy.files.WellFormed := by decide +kernel

/-- The hierarchy that has locked the top. -/
def plainHierarchy : Hierarchy where
  root := ⟨"/wc"⟩
  locks := [⟨⟨"/wc"⟩, false, .empty, some ⟨⟨"/wc"⟩, none⟩⟩]

theorem accounts_plainCopy : Accounts 0 (plainCopy, plainHierarchy) := by
  refine ⟨by decide, by decide, ?_⟩
  intro lock lock_mem held held_eq
  obtain rfl := List.mem_singleton.mp lock_mem
  obtain rfl : ⟨⟨"/wc"⟩, none⟩ = held := Option.some.inj held_eq
  exact ⟨rfl, by simp⟩

/-- Of two probes for a directory that is not versioned, the one in the hierarchy locks `sub` alone, the other
locks what is below it too. -/
theorem probeTry_adds_of_plainCopy :
    ∃ probed last lock after left added,
      probeOpen none true .infinity ⟨"/wc/sub/plain"⟩ plainCopy = .ok probed last ∧
      probed.openLocks.map AreaLock.terms =
        [(⟨"/wc/sub"⟩, true, .infinity), (⟨"/wc/sub/inner"⟩, true, .infinity)] ∧
      probeTry none true .infinity ⟨"/wc/sub/plain"⟩ (plainCopy, plainHierarchy) =
        .ok lock (after, left) ∧
      left.openLocks.Perm (added ++ plainHierarchy.openLocks) ∧
      added.map AreaLock.terms = [(⟨"/wc/sub"⟩, true, .empty)] := by
  have differ : ¬ProbesAlike plainCopy.files .infinity ⟨"/wc/sub/plain"⟩ := by
    rintro (versioned | plain | same)
    · exact absurd versioned (by decide +kernel)
    · exact absurd plain (by decide +kernel)
    · simp at same
  obtain ⟨probed, opened, terms⟩ := ok_of_yields
    (probeOpen none true .infinity ⟨"/wc/sub/plain"⟩) plainCopy
    (fun probed => probed.openLocks.map AreaLock.terms =
      [(⟨"/wc/sub"⟩, true, .infinity), (⟨"/wc/sub/inner"⟩, true, .infinity)]) (by decide +kernel)
  have canonical : plainCopy.files.canonical ⟨"/wc/sub/plain"⟩ = .ok ⟨"/wc/sub/plain"⟩ := by
    decide +kernel
  have above : plainCopy.files.nearestVersioned? ⟨"/wc/sub/plain"⟩ = some ⟨"/wc/sub"⟩ := by
    decide +kernel
  have canonicalAbove : plainCopy.files.canonical ⟨"/wc/sub"⟩ = .ok ⟨"/wc/sub"⟩ := by decide +kernel
  obtain ⟨lock, after, left, added, tried, open_eq, -, alone⟩ :=
    (probeTry_adds wellFormed_plainCopy accounts_plainCopy (by decide) canonical above canonicalAbove
      (by decide) (by decide)).1 probed _ opened
  exact ⟨probed, _, lock, after, left, added, opened, of_decide_eq_true terms, tried, open_eq,
    alone differ⟩

end Hierarchy

end Checkout
