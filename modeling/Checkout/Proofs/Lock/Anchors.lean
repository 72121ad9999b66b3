import Checkout.Proofs.Lock.LessLocked
import Checkout.Proofs.Lock.Lookups
import Checkout.Proofs.WorkingCopy.Anchors

/-!
# What an anchor locks

The top of a working copy is opened like any hierarchy. For any other path the directory above it is locked
alone, and then the tree at the path as if nothing had been locked before. This fails only where the lock file
of the directory above is created, and a record in the tree or the path itself is a link to that file: then the
path comes to be versioned, or to lead elsewhere, while its anchor is opened.
-/

namespace Checkout

variable {σ : Type}

/-! ## The lock file of the directory above -/

namespace TreeRequest

/-- The lock file that is created to lock the directory above a tree, if one is. -/
def newLockFiles (request : TreeRequest) (files : FileSystem) : Set Location :=
  {location | request.write = true ∧ ∃ parent, request.directory.parent? = some parent ∧
    files.Creates (Area.lockFile parent) location}

/-- The lock file that is created for the directory above is no record of the tree, and the tree's path leads
to it only if it lies in that directory. -/
structure Apart (request : TreeRequest) (files : FileSystem) : Prop where
  records : ∀ depth directory, request.Reaches depth directory →
    files.RecordOutside (request.newLockFiles files) directory
  target : ∀ parent spot, request.directory.parent? = some parent →
    files.resolve true request.directory = .ok spot → spot.location ∈ request.newLockFiles files →
      spot.location.path.isUnder parent = true

variable {request : TreeRequest} {files : FileSystem} {parent : Path} {front location : Location}

theorem newLockFiles_eq
    (above : request.directory.parent? = some parent) :
    request.newLockFiles files =
      {location | request.write = true ∧ files.Creates (Area.lockFile parent) location} := by
  simp [newLockFiles, above]

/-- Where no administrative directory has links, a lock file that is created stands in its own. -/
theorem eq_of_mem_newLockFiles (plain : files.PlainAreas [])
    (above : request.directory.parent? = some front.path)
    (found : files.entry true front.path = .ok (front, .directory))
    (created : location ∈ request.newLockFiles files) :
    location = front ++ [Area.directoryName, "lock"] := by
  rw [newLockFiles_eq above] at created
  obtain ⟨-, directory, name, resolved, rfl⟩ := created
  exact plain.location_content front.isAbsolute_path found properName_lock resolved

/-- Where no administrative directory has links, nothing leads to a lock file that is created. -/
theorem apart_of_plainAreas (wellFormed : files.WellFormed) (plain : files.PlainAreas [])
    (absolute : request.directory.isAbsolute = true)
    (above : request.directory.parent? = some front.path)
    (found : files.entry true front.path = .ok (front, .directory)) : request.Apart files := by
  refine ⟨?_, ?_⟩
  · intro depth directory reaches spot resolved created
    obtain ⟨rest, components_eq, -⟩ := reaches
    rw [Path.components_of_isAbsolute absolute, List.cons_append] at components_eq
    have outside := plain.recordOutside (Path.isAbsolute_of_components components_eq)
      (fun location _ => ⟨location, rfl⟩) spot resolved
    rw [eq_of_mem_newLockFiles plain above found created] at outside
    simp [FileSystem.lockPlaces] at outside
  · intro parent spot above' _ created
    rw [above, Option.some.injEq] at above'
    rw [← above', eq_of_mem_newLockFiles plain above found created]
    have proper := wellFormed.proper_of_node? (FileSystem.resolve_sound wellFormed
      (FileSystem.entry_eq_ok.mp found))
    have inside : ∀ name ∈ front ++ [Area.directoryName, "lock"], ProperName name := by
      intro name name_mem
      rw [List.mem_append, List.mem_pair] at name_mem
      rcases name_mem with higher | rfl | rfl
      · exact proper name higher
      · exact properName_directoryName
      · exact properName_lock
    rw [Path.isUnder, Location.components_path proper, Location.components_path inside,
      List.map_append, ← List.cons_append, List.isPrefixOf_iff_prefix]
    exact List.prefix_append _ _

end TreeRequest

namespace AreaLock

variable {cancel : Option (Cancellation σ)} {write : Bool} {depth : Depth} {path : Path}
  {world asked after : World σ} {lock : AreaLock} {locks : List AreaLock}

/-- Before a directory is locked there is less locked than afterwards. -/
theorem lessLocked_acquire (wellFormed : world.files.WellFormed)
    (polled : poll cancel world = .ok () asked)
    (acquired : acquire path write depth asked = .ok lock after) :
    World.LessLocked cancel world.files.nextFile
        {location | write = true ∧ world.files.Creates (Area.lockFile path) location} world after ∧
      world.files.nodes.length ≤ after.files.nodes.length := by
  obtain ⟨goesOn, rfl⟩ := poll_eq_ok polled
  obtain ⟨-, held, claimed, rfl⟩ := acquire_ok acquired
  have replied : Cancellation.reply cancel world.caller =
      (false, (Cancellation.reply cancel world.caller).2) := Prod.ext goesOn rfl
  rw [DirectoryLock.acquire_apply] at claimed
  split at claimed
  · simp at claimed
  · split at claimed
    · rename_i writing
      split at claimed
      · rename_i file files tried
        rw [EStateM.Result.ok.injEq] at claimed
        obtain ⟨-, rfl⟩ := claimed
        obtain ⟨less, fewer⟩ := FileSystem.lessLocked_tryAcquire wellFormed tried
        exact ⟨⟨by simpa [writing] using less, List.subset_cons_self _ _, replied⟩, fewer⟩
      · simp at claimed
      · simp at claimed
    · rename_i reading
      rw [EStateM.Result.ok.injEq] at claimed
      obtain ⟨-, rfl⟩ := claimed
      exact ⟨⟨by simpa [reading] using FileSystem.lessLocked_refl wellFormed,
        List.subset_cons_self _ _, replied⟩, le_rfl⟩

theorem lockTree_empty (ran : lockTree cancel write .empty path world = .ok locks after) :
    ∃ asked lock, poll cancel world = .ok () asked ∧
      acquire path write .empty asked = .ok lock after ∧ locks = [lock] := by
  obtain ⟨asked, locked, lock, polled, acquired, -⟩ := Descent.lockTree_top ran
  rw [lockTree_single polled acquired, EStateM.Result.ok.injEq] at ran
  obtain ⟨rfl, rfl⟩ := ran
  exact ⟨asked, lock, polled, acquired, rfl⟩

end AreaLock

/-! ## What is open in a hierarchy -/

namespace Hierarchy

variable {cancel : Option (Cancellation σ)} {write : Bool} {depth : Depth} {path parent real : Path}
  {world after other last : World σ} {hierarchy : Hierarchy} {lock : AreaLock}
  {locks firsts : List AreaLock}

instance : Std.TransCmp fun left right : Path × Bool × Depth => left.1.order right.1 where
  eq_swap := Std.OrientedCmp.eq_swap
  isLE_trans := Std.TransCmp.isLE_trans

theorem Sorted.terms_inOrder (inOrder : hierarchy.Sorted) :
    (hierarchy.openLocks.map AreaLock.terms).Pairwise fun left right =>
      left.1.order right.1 = .lt :=
  List.pairwise_map.mpr (inOrder.filter AreaLock.isOpen)

/-- A path with an open lock of its own has no nearer one. -/
theorem Rooted.probeRetrieve_own {files : FileSystem} {path : Path} (rooted : hierarchy.Rooted)
    (inOrder : hierarchy.Sorted) (lock_mem : lock ∈ hierarchy.openLocks)
    (canonical : files.canonical path = .ok lock.path) :
    hierarchy.probeRetrieve files path = .ok lock :=
  (rooted.probeRetrieve_eq_ok_iff inOrder canonical).mpr
    ⟨lock_mem, Path.isUnder_refl _, fun _ _ under => under⟩

/-- All locks of a new hierarchy are for writing, or none is. -/
theorem write_openAt (wellFormed : world.files.WellFormed)
    (opened : openAt cancel write depth path world = .ok hierarchy after) :
    ∀ lock ∈ hierarchy.openLocks, lock.write = write := by
  obtain ⟨root, locks, canonical, ran, rfl⟩ := openAt_ok opened
  intro lock lock_mem
  exact (Descent.grants_lockTree wellFormed (FileSystem.isAbsolute_canonical canonical) ran lock
    ((openLocks_of_lockTree ran).mem_iff.mp lock_mem)).write_eq

/-- A tree that is entered below a lock is open as it would be on its own. -/
theorem terms_openLocks_below (wellFormed : world.files.WellFormed) (absolute : real.isAbsolute = true)
    (isOpen : lock.isOpen = true) (above : lock.path.order real = .lt)
    (ran : AreaLock.lockTree cancel write depth real world = .ok locks after)
    (ranAlone : AreaLock.lockTree cancel write depth real other = .ok firsts last)
    (alike : firsts.map AreaLock.terms = locks.map AreaLock.terms) :
    ((⟨parent, [lock]⟩ : Hierarchy).insertAll locks).openLocks.map AreaLock.terms =
      lock.terms :: ((⟨real, []⟩ : Hierarchy).insertAll firsts).openLocks.map AreaLock.terms := by
  have below : ∀ other ∈ locks, lock.path.order other.path = .lt := fun other other_mem =>
    Path.order_lt_of_isUnder above
      (Descent.under_lockTree wellFormed absolute (Path.isUnder_refl real) ran other other_mem)
  have single : (⟨parent, [lock]⟩ : Hierarchy).openLocks = [lock] := by simp [openLocks, isOpen]
  have free : ∀ other ∈ (⟨parent, [lock]⟩ : Hierarchy).openLocks,
      other.key ∉ locks.map AreaLock.key := by
    intro other other_mem taken
    rw [single, List.mem_singleton] at other_mem
    obtain ⟨twin, twin_mem, same⟩ := List.mem_map.mp taken
    have order_eq : twin.path.order twin.path = .lt := by
      rw [Path.order_congr_left (show twin.path.components = lock.path.components from
        same.trans (congrArg AreaLock.key other_mem))]
      exact below twin twin_mem
    exact Path.not_order_self _ order_eq
  have ledger := Descent.ledger_lockTree ran
  have entered := @openLocks_insertAll ⟨parent, [lock]⟩ locks (by simpa using ledger.allOpen)
    (by simpa using ledger.distinct) free
  rw [single] at entered
  have same : ∀ terms,
      terms ∈ ((⟨real, []⟩ : Hierarchy).insertAll firsts).openLocks.map AreaLock.terms ↔
        terms ∈ locks.map AreaLock.terms := by
    intro terms
    rw [((openLocks_of_lockTree ranAlone).map AreaLock.terms).mem_iff, alike]
  have oneSorted : (⟨parent, [lock]⟩ : Hierarchy).Sorted := List.pairwise_singleton _ _
  have noneSorted : (⟨real, []⟩ : Hierarchy).Sorted := List.Pairwise.nil
  apply eq_of_strict (fun left right : Path × Bool × Depth => left.1.order right.1)
    (oneSorted.insertAll locks).terms_inOrder
  · refine List.pairwise_cons.mpr ⟨?_, (noneSorted.insertAll firsts).terms_inOrder⟩
    intro terms listed
    obtain ⟨other, other_mem, rfl⟩ := List.mem_map.mp ((same terms).mp listed)
    exact below other other_mem
  · intro terms
    rw [(entered.map AreaLock.terms).mem_iff, List.mem_cons, same terms, List.map_append,
      List.mem_append, List.map_singleton, List.mem_singleton, or_comm]

end Hierarchy

/-! ## Entries of an anchor -/

namespace Anchored

open Hierarchy

variable {cancel : Option (Cancellation σ)} {write : Bool} {depth : Depth} {path real parent : Path}
  {name : OsText} {front : Location} {world middle after : World σ} {hierarchy left : Hierarchy}
  {lock child : AreaLock} {request : TreeRequest} {anchored : Anchored}

/-- The directory with an entry has been locked alone, to lock a tree at the entry later. -/
structure Holds (cancel : Option (Cancellation σ)) (request : TreeRequest) (world middle : World σ)
    (front : Location) (name : OsText) (lock : AreaLock) : Prop where
  directory_eq : request.directory = Location.path (front ++ [name])
  proper : ∀ other ∈ front ++ [name], ProperName other
  found : world.files.entry true front.path = .ok (front, .directory)
  less : World.LessLocked cancel world.files.nextFile (request.newLockFiles world.files) world middle
  fewer : world.files.nodes.length ≤ middle.files.nodes.length
  isOpen : lock.isOpen = true
  terms_eq : lock.terms = (front.path, request.write, .empty)

theorem holds_of_openAt (wellFormed : world.files.WellFormed)
    (steady : world.files.canonical request.directory = .ok request.directory)
    (above : request.directory.parent? = some parent) (named : request.directory.name? = some name)
    (opened : openAt cancel request.write .empty parent world = .ok hierarchy middle) :
    ∃ front lock, parent = front.path ∧ hierarchy = ⟨front.path, [lock]⟩ ∧
      Holds cancel request world middle front name lock := by
  obtain ⟨root, locks, canonicalAbove, ran, rfl⟩ := openAt_ok opened
  obtain ⟨front, rfl, directory_eq, proper, found⟩ := FileSystem.exists_location_of_canonical wellFormed
    steady above named canonicalAbove (isVersioned_lockTree ran)
  rw [FileSystem.canonical_of_entry found, Except.ok.injEq] at canonicalAbove
  subst canonicalAbove
  obtain ⟨asked, lock, polled, acquired, rfl⟩ := AreaLock.lockTree_empty ran
  obtain ⟨less, fewer⟩ := AreaLock.lessLocked_acquire wellFormed polled acquired
  rw [← TreeRequest.newLockFiles_eq above] at less
  obtain ⟨-, held, -, rfl⟩ := AreaLock.acquire_ok acquired
  exact ⟨front, _, rfl, rfl, directory_eq, proper, found, less, fewer, rfl, rfl⟩

namespace Holds

variable (holds : Holds cancel request world middle front name lock)

include holds

theorem path_eq : lock.path = front.path :=
  congrArg Prod.fst holds.terms_eq

theorem write_eq : lock.write = request.write :=
  congrArg (fun terms => terms.2.1) holds.terms_eq

theorem openLocks_eq : (⟨front.path, [lock]⟩ : Hierarchy).openLocks = [lock] := by
  simp [openLocks, holds.isOpen]

theorem join_eq : front.path.join name = request.directory := by
  rw [holds.directory_eq, Location.join_path holds.proper]

theorem above : request.directory.parent? = some front.path := by
  rw [holds.directory_eq, Location.parent?_path holds.proper]

theorem absolute : request.directory.isAbsolute = true := by
  rw [holds.directory_eq]
  exact Location.isAbsolute_path _

theorem under : request.directory.isUnder front.path = true := by
  rw [← holds.join_eq]
  exact Path.isUnder_join (holds.proper name (by simp)) front.isAbsolute_path

theorem order_lt : lock.path.order request.directory = .lt := by
  rw [holds.path_eq, ← holds.join_eq]
  exact Path.order_join (holds.proper name (by simp)) front.isAbsolute_path

theorem rooted : (⟨front.path, [lock]⟩ : Hierarchy).Rooted := by
  refine ⟨front.isAbsolute_path, ?_⟩
  intro other other_mem
  rw [List.mem_singleton.mp other_mem, holds.path_eq]
  exact Path.isUnder_refl _

theorem isVersioned_eq (apart : request.Apart world.files) :
    world.files.isVersioned request.directory = middle.files.isVersioned request.directory :=
  holds.less.files.isVersioned_eq (apart.records _ _ request.reaches_top)

/-- The entry's canonical form is still in the directory, whether the entry is there or not. -/
theorem canonical_under (apart : request.Apart world.files)
    (steady : world.files.canonical request.directory = .ok request.directory) :
    ∃ found, middle.files.canonical request.directory = .ok found ∧
      found.isUnder front.path = true := by
  have under := holds.under
  have target := fun spot => apart.target front.path spot holds.above
  rw [holds.directory_eq] at steady under target ⊢
  rcases holds.less.files.canonical holds.proper holds.found steady with
    same | ⟨spot, resolved, created, moved⟩
  · exact ⟨_, same, under⟩
  · exact ⟨_, moved, target spot resolved created⟩

/-- As long as the directory is locked alone, its lock is the one for the entry. -/
theorem targetLock (apart : request.Apart world.files)
    (steady : world.files.canonical request.directory = .ok request.directory) :
    (⟨front.path, [lock]⟩ : Hierarchy).probeRetrieve middle.files request.directory = .ok lock := by
  obtain ⟨found, canonical, under⟩ := holds.canonical_under apart steady
  rw [holds.rooted.probeRetrieve_eq_ok_iff (List.pairwise_singleton _ _) canonical]
  refine ⟨by simp [holds.openLocks_eq], by rwa [holds.path_eq], ?_⟩
  intro other other_mem _
  rw [holds.openLocks_eq, List.mem_singleton] at other_mem
  rw [other_mem]
  exact Path.isUnder_refl _

/-- The tree at the entry is locked as it would be if its directory were not. -/
theorem openChild (apart : request.Apart world.files)
    (steady : world.files.canonical request.directory = .ok request.directory)
    (versioned : world.files.isVersioned request.directory = true)
    (opened : Hierarchy.openChild cancel request.write request.depth request.directory
      (middle, ⟨front.path, [lock]⟩) = .ok child (after, left)) :
    left.root = front.path ∧ (∀ lock ∈ left.openLocks, lock.write = request.write) ∧
    (∃ alone last, openAt cancel request.write request.depth request.directory world = .ok alone last ∧
      left.openLocks.map AreaLock.terms = lock.terms :: alone.openLocks.map AreaLock.terms) ∧
    ∃ lock ∈ left.openLocks, lock.path = request.directory ∧
      left.probeRetrieve after.files request.directory = .ok lock := by
  have sameTree := holds.less.files.sameTree
  have middleFormed := holds.less.files.otherWellFormed
  have middleVersioned := (holds.isVersioned_eq apart).symm.trans versioned
  have middleSteady := (FileSystem.canonical_congr holds.absolute versioned sameTree).trans steady
  obtain ⟨top, locks, last, canonical, -, ran, state_eq⟩ := openChild_ok opened
  rw [middleSteady, Except.ok.injEq] at canonical
  subst canonical
  rw [Prod.mk.injEq] at state_eq
  obtain ⟨rfl, rfl⟩ := state_eq
  refine ⟨root_insertAll _ _, ?_, ?_, ?_⟩
  · intro other other_mem
    rcases mem_of_mem_insertAll (mem_openLocks.mp other_mem).1 with new | ⟨old, -⟩
    · exact (Descent.grants_lockTree middleFormed holds.absolute ran other new).write_eq
    · rw [List.mem_singleton.mp old]
      exact holds.write_eq
  · obtain ⟨location, found⟩ := FileSystem.entry_of_isVersioned holds.absolute versioned
    obtain ⟨firsts, last, ranAlone, alike⟩ := Descent.lockTree_lessLocked holds.less holds.fewer
      apart.records holds.absolute found ran
    refine ⟨_, last, by rw [openAt_of_canonical _ _ _ steady, ranAlone], ?_⟩
    exact terms_openLocks_below middleFormed holds.absolute holds.isOpen holds.order_lt ran ranAlone alike
  · obtain ⟨asked, locked, lock, -, acquired, lock_mem⟩ := Descent.lockTree_top ran
    obtain ⟨-, held, -, rfl⟩ := AreaLock.acquire_ok acquired
    have ledger := Descent.ledger_lockTree ran
    have recorded := @mem_insertAll ⟨front.path, [lock]⟩ locks _ (by simpa using ledger.distinct) lock_mem
    have below := Descent.under_lockTree middleFormed holds.absolute holds.under ran
    have afterSteady := (FileSystem.canonical_congr holds.absolute middleVersioned
      (Descent.sameTree_lockTree middleFormed ran)).trans middleSteady
    have inOrder : (⟨front.path, [lock]⟩ : Hierarchy).Sorted := List.pairwise_singleton _ _
    have open_mem := mem_openLocks.mpr ⟨recorded, rfl⟩
    exact ⟨_, open_mem, rfl,
      (holds.rooted.insertAll below).probeRetrieve_own (inOrder.insertAll locks) open_mem afterSteady⟩

end Holds

/-- The top of a working copy is locked like any directory. -/
theorem opened_top (wellFormed : world.files.WellFormed)
    (steady : world.files.canonical real = .ok real)
    (opened : openAt cancel write depth real world = .ok hierarchy after) :
    world.files.isVersioned real = true ∧ hierarchy.root = real ∧
      ∃ lock ∈ hierarchy.openLocks, lock.path = real ∧
        hierarchy.probeRetrieve after.files real = .ok lock := by
  have rooted := rooted_openAt wellFormed opened
  obtain ⟨root, locks, canonical, ran, rfl⟩ := openAt_ok opened
  rw [steady, Except.ok.injEq] at canonical
  subst canonical
  have versioned := isVersioned_lockTree ran
  obtain ⟨asked, locked, lock, -, acquired, lock_mem⟩ := Descent.lockTree_top ran
  obtain ⟨-, held, -, rfl⟩ := AreaLock.acquire_ok acquired
  have open_mem := (openLocks_of_lockTree ran).mem_iff.mpr lock_mem
  have afterSteady := (FileSystem.canonical_congr (FileSystem.isAbsolute_canonical steady) versioned
    (Descent.sameTree_lockTree wellFormed ran)).trans steady
  have noneSorted : (⟨real, []⟩ : Hierarchy).Sorted := List.Pairwise.nil
  exact ⟨versioned, root_insertAll _ _, _, open_mem, rfl,
    rooted.probeRetrieve_own (noneSorted.insertAll locks) open_mem afterSteady⟩

/-- For any other path the directory above is locked alone, and the tree at the path if it is versioned. -/
theorem opened_entry {target : String} (wellFormed : world.files.WellFormed)
    (steady : world.files.canonical request.directory = .ok request.directory)
    (apart : request.Apart world.files) (above : request.directory.parent? = some parent)
    (named : request.directory.name? = some (target : OsText))
    (found : world.files.anchor path = .ok (parent, some target))
    (opened : openAnchor cancel request.write request.depth path world = .ok anchored after) :
    anchored.hierarchy.root = parent ∧ anchored.targetPath = request.directory ∧
      anchored.target = some target ∧
      (∀ lock ∈ anchored.hierarchy.openLocks, lock.write = request.write) ∧
      ((world.files.isVersioned request.directory = true ∧
        (∃ alone last,
          openAt cancel request.write request.depth request.directory world = .ok alone last ∧
          anchored.hierarchy.openLocks.map AreaLock.terms =
            (parent, request.write, .empty) :: alone.openLocks.map AreaLock.terms) ∧
        ∃ lock ∈ anchored.hierarchy.openLocks,
          lock.path = request.directory ∧ anchored.targetLock after.files = .ok lock) ∨
      (world.files.isVersioned request.directory = false ∧
        anchored.hierarchy.openLocks.map AreaLock.terms = [(parent, request.write, .empty)] ∧
        ∃ lock ∈ anchored.hierarchy.openLocks,
          lock.path = parent ∧ anchored.targetLock after.files = .ok lock)) := by
  obtain ⟨target_eq, hierarchy, middle, ran, outcome⟩ := openAnchor_entry found opened
  obtain ⟨front, lock, rfl, rfl, holds⟩ := holds_of_openAt wellFormed steady above named ran
  rw [holds.join_eq, ← holds.isVersioned_eq apart] at outcome
  have path_eq (root_eq : anchored.hierarchy.root = front.path) :
      anchored.targetPath = request.directory := by
    simp only [targetPath, target_eq, root_eq, holds.join_eq]
  rcases outcome with ⟨versioned, child, ranChild⟩ | ⟨unversioned, rfl, hierarchy_eq⟩
  · obtain ⟨root_eq, allWrite, alone, own⟩ := holds.openChild apart steady versioned ranChild
    rw [holds.terms_eq] at alone
    exact ⟨root_eq, path_eq root_eq, target_eq, allWrite,
      Or.inl ⟨versioned, alone, by rwa [targetLock, path_eq root_eq]⟩⟩
  · have root_eq : anchored.hierarchy.root = front.path := by rw [hierarchy_eq]
    have only : anchored.hierarchy.openLocks = [lock] := by rw [hierarchy_eq, holds.openLocks_eq]
    refine ⟨root_eq, path_eq root_eq, target_eq, ?_,
      Or.inr ⟨unversioned, ?_, lock, ?_, holds.path_eq, ?_⟩⟩
    · intro other other_mem
      rw [only, List.mem_singleton] at other_mem
      rw [other_mem]
      exact holds.write_eq
    · rw [only, List.map_singleton, holds.terms_eq]
    · simp [only]
    · rw [targetLock, path_eq root_eq, hierarchy_eq]
      exact holds.targetLock apart steady

/--
An opened anchor leads to the canonical path it was opened for. The top of a working copy is locked as if it
were opened on its own. For any other path the directory above is locked alone, and the tree at the path
too, if the path is versioned, as if it were opened on its own. The lock of the target is the one at the
path if the path is versioned, and otherwise the one of the directory above. A target is told by the text of
its name, so its name has to be UTF-8.
-/
theorem openAnchor_locks (wellFormed : world.files.WellFormed)
    (canonical : world.files.canonical path = .ok real)
    (steady : world.files.canonical real = .ok real)
    (apart : ¬world.files.IsTop real → TreeRequest.Apart ⟨write, depth, real⟩ world.files)
    (readable : ¬world.files.IsTop real →
      ∀ name, real.name? = some name → ∃ text : String, name = text)
    (opened : openAnchor cancel write depth path world = .ok anchored after) :
    anchored.targetPath = real ∧
    (∀ lock ∈ anchored.hierarchy.openLocks, lock.write = write) ∧
    (world.files.isVersioned real = true → ∃ lock ∈ anchored.hierarchy.openLocks,
      lock.path = real ∧ anchored.targetLock after.files = .ok lock) ∧
    (world.files.IsTop real → anchored.target = none ∧
      openAt cancel write depth path world = .ok anchored.hierarchy after) ∧
    (¬world.files.IsTop real → ∃ (parent : Path) (target : String),
      real.parent? = some parent ∧ real.name? = some (target : OsText) ∧
      anchored.hierarchy.root = parent ∧ anchored.target = some target ∧
      (world.files.isVersioned real = true → ∃ alone last,
        openAt cancel write depth path world = .ok alone last ∧
        anchored.hierarchy.openLocks.map AreaLock.terms =
          (parent, write, .empty) :: alone.openLocks.map AreaLock.terms) ∧
      (world.files.isVersioned real = false →
        anchored.hierarchy.openLocks.map AreaLock.terms = [(parent, write, .empty)] ∧
        ∃ lock ∈ anchored.hierarchy.openLocks,
          lock.path = parent ∧ anchored.targetLock after.files = .ok lock)) := by
  have openAt_eq : openAt cancel write depth path world = openAt cancel write depth real world := by
    rw [openAt_of_canonical _ _ _ canonical, openAt_of_canonical _ _ _ steady]
  rcases found : world.files.anchor path with error | ⟨anchor, _ | target⟩
  · simp [openAnchor_apply, found] at opened
  · -- the path is its own anchor
    obtain ⟨rfl, top⟩ := FileSystem.anchor_none canonical found
    obtain ⟨target_eq, ran⟩ := openAnchor_top found opened
    obtain ⟨versioned, root_eq, own⟩ := opened_top wellFormed steady ran
    have path_eq : anchored.targetPath = anchor := by simp only [targetPath, target_eq, root_eq]
    exact ⟨path_eq, write_openAt wellFormed ran, fun _ => by rwa [targetLock, path_eq],
      fun _ => ⟨target_eq, openAt_eq.trans ran⟩, fun notTop => absurd (top versioned) notTop⟩
  · -- the path is an entry of its anchor
    obtain ⟨above, ⟨name, named, shown_eq⟩, notTop⟩ := FileSystem.anchor_some canonical found
    obtain ⟨text, rfl⟩ := readable notTop name named
    rw [OsText.shown_ofString] at shown_eq
    subst shown_eq
    obtain ⟨root_eq, path_eq, target_eq, allWrite, outcome⟩ :=
      @opened_entry _ _ path anchor world after ⟨write, depth, real⟩ anchored text wellFormed steady
        (apart notTop) above named found opened
    refine ⟨path_eq, allWrite, ?_, fun top => absurd top notTop,
      fun _ => ⟨anchor, text, above, named, root_eq, target_eq, ?_, ?_⟩⟩
    all_goals
      intro versioned
      rcases outcome with ⟨isVersioned, alone, own⟩ | ⟨unversioned, only, own⟩
    · exact own
    · exact absurd (versioned.symm.trans unversioned) (by simp)
    · rwa [openAt_eq]
    · exact absurd (versioned.symm.trans unversioned) (by simp)
    · exact absurd (versioned.symm.trans isVersioned) (by simp)
    · exact ⟨only, own⟩

/-- The record of a directory with a URL. -/
def recordOf (url : String) : ByteArray :=
  ("\x7b\"url\":\"" ++ url ++ "\",\"revision\":1,\"created_at\":\"2024-01-01T00:00:00Z\"\x7d").toUTF8

/-- A working copy with directories in it that its URL leads to, and a link. The caller counts. -/
def trackedCopy : World Nat where
  files := {
    nodes := [(["wc"], .directory), (["wc", ".svn"], .directory),
      (["wc", ".svn", "entries"], .file 0), (["wc", "sub"], .directory),
      (["wc", "sub", ".svn"], .directory), (["wc", "sub", ".svn", "entries"], .file 1),
      (["wc", "sub", "inner"], .directory), (["wc", "sub", "inner", ".svn"], .directory),
      (["wc", "sub", "inner", ".svn", "entries"], .file 2), (["wc", "s"], .link "sub")]
    contents := [(0, recordOf "r"), (1, recordOf "r/sub"), (2, recordOf "r/sub/inner")]
    nextFile := 3
    held := []
    current := [] }
  claims := []
  environment := default
  caller := 0

theorem wellFormed_trackedCopy : trackedCopy.files.WellFormed := by decide +kernel

theorem plainAreas_trackedCopy : trackedCopy.files.PlainAreas [] := by
  apply FileSystem.plainAreas_of_nodes
  · intro location target isLink
    obtain ⟨rfl, -⟩ : location = ["wc", "s"] ∧ target = "sub" := by
      simpa [trackedCopy] using isLink
    decide
  · intro location other identity isFile otherFile
    simp [trackedCopy] at isFile otherFile
    grind

/-- The link leads to a directory that its parent's URL leads to, so it is locked behind its parent, with
what is below it. The caller is asked three times. -/
theorem openAnchor_locks_of_trackedCopy :
    trackedCopy.files.canonical ⟨"/wc/s"⟩ = .ok ⟨"/wc/sub"⟩ ∧
    trackedCopy.files.canonical ⟨"/wc/sub"⟩ = .ok ⟨"/wc/sub"⟩ ∧
    TreeRequest.Apart ⟨true, .infinity, ⟨"/wc/sub"⟩⟩ trackedCopy.files ∧
    ∃ anchored after alone last lock,
      openAnchor (some afterThree) true .infinity ⟨"/wc/s"⟩ trackedCopy = .ok anchored after ∧
      anchored.targetPath = ⟨"/wc/sub"⟩ ∧ anchored.target = some "sub" ∧
      openAt (some afterThree) true .infinity ⟨"/wc/s"⟩ trackedCopy = .ok alone last ∧
      anchored.hierarchy.openLocks.map AreaLock.terms =
        (⟨"/wc"⟩, true, .empty) :: alone.openLocks.map AreaLock.terms ∧
      lock ∈ anchored.hierarchy.openLocks ∧ lock.path = ⟨"/wc/sub"⟩ ∧
      anchored.targetLock after.files = .ok lock := by
  have canonical : trackedCopy.files.canonical ⟨"/wc/s"⟩ = .ok ⟨"/wc/sub"⟩ := by decide +kernel
  have steady : trackedCopy.files.canonical ⟨"/wc/sub"⟩ = .ok ⟨"/wc/sub"⟩ := by decide +kernel
  have versioned : trackedCopy.files.isVersioned ⟨"/wc/sub"⟩ = true := by decide +kernel
  have found : trackedCopy.files.isTop ⟨"/wc/sub"⟩ = .ok false := by decide +kernel
  have notTop : ¬trackedCopy.files.IsTop ⟨"/wc/sub"⟩ :=
    (FileSystem.isTop_iff versioned found).not.mp Bool.false_ne_true
  have apart : TreeRequest.Apart ⟨true, .infinity, ⟨"/wc/sub"⟩⟩ trackedCopy.files :=
    @TreeRequest.apart_of_plainAreas ⟨true, .infinity, ⟨"/wc/sub"⟩⟩ _ ["wc"] wellFormed_trackedCopy
      plainAreas_trackedCopy (by decide) (by decide) (by decide +kernel)
  obtain ⟨anchored, opened, -⟩ := ok_of_yields
    (openAnchor (some afterThree) true .infinity ⟨"/wc/s"⟩) trackedCopy (fun _ => true)
    (by decide +kernel)
  have name_eq : Path.name? ⟨"/wc/sub"⟩ = some ("sub" : OsText) := by decide
  obtain ⟨path_eq, -, own, -, entry⟩ := openAnchor_locks wellFormed_trackedCopy canonical steady
    (fun _ => apart) (fun _ name named => ⟨"sub", by rw [name_eq] at named; grind⟩) opened
  obtain ⟨lock, lock_mem, lock_eq, retrieved⟩ := own versioned
  obtain ⟨parent, name, above, named, -, target_eq, locks, -⟩ := entry notTop
  obtain ⟨alone, last, ranAlone, terms_eq⟩ := locks versioned
  have parent_eq : Path.parent? ⟨"/wc/sub"⟩ = some ⟨"/wc"⟩ := by decide
  rw [parent_eq, Option.some.injEq] at above
  rw [name_eq, Option.some.injEq, OsText.ofString_inj] at named
  subst above named
  exact ⟨canonical, steady, apart, anchored, _, alone, last, lock, opened, path_eq, target_eq, ranAlone,
    terms_eq, lock_mem, lock_eq, retrieved⟩

/-! ### Links to the lock file of the anchor -/

/-- Two working copies. The record of `sub` in the first one is a link to the lock file of its parent. In the
second one that lock file itself and `t` are links to a file elsewhere, which is missing. -/
def lockLinks : World Unit where
  files := {
    nodes := [(["wc"], .directory), (["wc", ".svn"], .directory),
      (["wc", ".svn", "entries"], .file 0), (["wc", "sub"], .directory),
      (["wc", "sub", ".svn"], .directory),
      (["wc", "sub", ".svn", "entries"], .link "../../.svn/lock"), (["other"], .directory),
      (["other", ".svn"], .directory), (["other", ".svn", "entries"], .file 1),
      (["other", ".svn", "lock"], .link "../../shared"), (["other", "t"], .link "../shared")]
    contents := []
    nextFile := 2
    held := []
    current := [] }
  claims := []
  environment := default
  caller := ()

theorem wellFormed_lockLinks : lockLinks.files.WellFormed := by decide +kernel

/-- A path whose last name ends in a byte that is not UTF-8. -/
def unreadable : Path :=
  ⟨"/wc/caf" ++ ⟨[0xe9]⟩⟩

/-- A working copy with a versioned directory at that path. The URL of its parent leads to the name that the
directory is shown with. -/
def shownCopy : World Unit where
  files := {
    nodes := [(["wc"], .directory), (["wc", ".svn"], .directory),
      (["wc", ".svn", "entries"], .file 0), (["wc", "caf" ++ ⟨[0xe9]⟩], .directory),
      (["wc", "caf" ++ ⟨[0xe9]⟩, ".svn"], .directory),
      (["wc", "caf" ++ ⟨[0xe9]⟩, ".svn", "entries"], .file 1)]
    contents := [(0, recordOf "r"), (1, recordOf "r/caf\ufffd")]
    nextFile := 2
    held := []
    current := [] }
  claims := []
  environment := default
  caller := ()

theorem wellFormed_shownCopy : shownCopy.files.WellFormed := by decide +kernel

/-- To lock the parent makes `sub` a versioned directory, so it is locked as well. And it makes `t` lead out of
the hierarchy, so its target has no lock. A target whose name is not UTF-8 is taken for another one, which is
not there and is not locked. -/
theorem openAnchor_misses_locks :
    (shownCopy.files.WellFormed ∧ shownCopy.files.canonical unreadable = .ok unreadable ∧
      shownCopy.files.isVersioned unreadable = true ∧
      ∃ anchored after,
        openAnchor none true .empty unreadable shownCopy = .ok anchored after ∧
        anchored.targetPath = ⟨"/wc/caf\ufffd"⟩ ∧
        anchored.hierarchy.openLocks.map AreaLock.terms = [(⟨"/wc"⟩, true, .empty)]) ∧
    lockLinks.files.WellFormed ∧
    (lockLinks.files.canonical ⟨"/wc/sub"⟩ = .ok ⟨"/wc/sub"⟩ ∧
      lockLinks.files.isVersioned ⟨"/wc/sub"⟩ = false ∧
      ∃ anchored after,
        openAnchor none true .empty ⟨"/wc/sub"⟩ lockLinks = .ok anchored after ∧
        anchored.hierarchy.openLocks.map AreaLock.terms =
          [(⟨"/wc"⟩, true, .empty), (⟨"/wc/sub"⟩, true, .empty)]) ∧
    lockLinks.files.canonical ⟨"/other/t"⟩ = .ok ⟨"/other/t"⟩ ∧
      lockLinks.files.isVersioned ⟨"/other/t"⟩ = false ∧
      ∃ anchored after,
        openAnchor none true .empty ⟨"/other/t"⟩ lockLinks = .ok anchored after ∧
        anchored.hierarchy.openLocks.map AreaLock.terms = [(⟨"/other"⟩, true, .empty)] ∧
        anchored.targetLock after.files = .error (.noLock ⟨"/shared"⟩) := by
  refine ⟨⟨wellFormed_shownCopy, by decide +kernel, by decide +kernel, ?_⟩, wellFormed_lockLinks,
    ⟨by decide +kernel, by decide +kernel, ?_⟩, by decide +kernel, by decide +kernel, ?_⟩
  · obtain ⟨anchored, opened, answers⟩ := ok_of_yields
      (openAnchor none true .empty unreadable) shownCopy
      (fun anchored => decide (anchored.targetPath = ⟨"/wc/caf\ufffd"⟩ ∧
        anchored.hierarchy.openLocks.map AreaLock.terms = [(⟨"/wc"⟩, true, .empty)]))
      (by decide +kernel)
    exact ⟨anchored, _, opened, of_decide_eq_true answers⟩
  · obtain ⟨anchored, opened, terms⟩ := ok_of_yields
      (openAnchor none true .empty ⟨"/wc/sub"⟩) lockLinks
      (fun anchored => anchored.hierarchy.openLocks.map AreaLock.terms =
        [(⟨"/wc"⟩, true, .empty), (⟨"/wc/sub"⟩, true, .empty)]) (by decide +kernel)
    exact ⟨anchored, _, opened, of_decide_eq_true terms⟩
  · obtain ⟨anchored, opened, answers⟩ := ok_of_yields
      (openAnchor none true .empty ⟨"/other/t"⟩) lockLinks
      (fun anchored => decide (anchored.hierarchy.openLocks.map AreaLock.terms =
          [(⟨"/other"⟩, true, .empty)] ∧
        anchored.targetLock
          (stateAfter (openAnchor none true .empty ⟨"/other/t"⟩) lockLinks).files =
            .error (.noLock ⟨"/shared"⟩))) (by decide +kernel)
    exact ⟨anchored, _, opened, of_decide_eq_true answers⟩

end Anchored

end Checkout
