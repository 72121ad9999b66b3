import Checkout.Proofs.FileSystem.Probing
import Checkout.Proofs.FileSystem.Without
import Checkout.Proofs.Lock.Reading
import Checkout.Proofs.WorkingCopy.PlainAreas
import Checkout.Proofs.WorkingCopy.Reachable
import Checkout.WorkingCopy.Cleanup

/-!
# Cleaning up

Cleaning up a working copy comes to each of its directories once, in pre-order, and takes the stale lock files
away. It goes by what was there in the beginning: no lock file that it takes away is the lock file of another
directory, and as long as none of them is a record, the same directories stay in reach. So to clean up again
finds nothing.
-/

namespace Checkout

variable {σ : Type}

namespace FileSystem

variable {files : FileSystem} {root directory : Path} {top location : Location} {gone : List Location}
  {names : List OsText}

/-- In reach of a root no administrative directory is a link, and no lock file is. -/
structure PlainReach (files : FileSystem) (root : Path) : Prop where
  area : ∀ directory location target, files.Reachable root directory →
    files.entry true directory = .ok (location, .directory) →
      files.node? (location ++ [Area.directoryName]) ≠ some (.link target)
  lockFile : ∀ directory location target, files.Reachable root directory →
    files.entry true directory = .ok (location, .directory) →
      files.node? (location ++ [Area.directoryName, "lock"]) ≠ some (.link target)

theorem PlainReach.plainArea (plain : files.PlainReach root) (reachable : files.Reachable root directory)
    (within : files.Within root top directory location) : files.PlainArea directory location where
  absolute := within.absolute
  found := within.found
  versioned := within.versioned
  area := fun target => plain.area directory location target reachable within.found
  lockFile := fun target => plain.lockFile directory location target reachable within.found

/-- None of some locations is that of the record of a directory in reach. -/
def SparesRecords (files : FileSystem) (root : Path) (gone : List Location) : Prop :=
  ∀ directory location identity, files.Reachable root directory →
    files.entry true (Area.entriesFile directory) = .ok (location, .file identity) → location ∉ gone

theorem Subdirectories.without (children : files.Subdirectories directory names)
    (wellFormed : files.WellFormed) (areFiles : files.AreFiles gone)
    (spares : files.SparesRecords root gone) (reachable : files.Reachable root directory) :
    (files.without gone).Subdirectories directory names := by
  have same := areFiles.agreeOutside.sameTree
  refine ⟨children.inOrder, ?_⟩
  intro name
  rw [children.mem_iff name]
  constructor
  · rintro ⟨location, found, inside, ordinary, versioned⟩
    obtain ⟨record, identity, record_eq⟩ := isFile_iff.mp versioned
    have spared := spares _ _ _ (reachable.child found inside ordinary versioned) record_eq
    exact ⟨location, entry_congr same found, same.directory_iff.mp inside, ordinary,
      (wellFormed.isVersioned_without areFiles).mpr ⟨record, identity, record_eq, spared⟩⟩
  · rintro ⟨location, found, inside, ordinary, versioned⟩
    obtain ⟨record, identity, record_eq, -⟩ := (wellFormed.isVersioned_without areFiles).mp versioned
    exact ⟨location, entry_congr same.symm found, same.directory_iff.mpr inside, ordinary,
      isFile_iff.mpr ⟨record, identity, record_eq⟩⟩

end FileSystem

namespace World

variable {world : World σ} {directory : Path} {location : Location} {gone : List Location}

/-- The place of the lock file of a directory if it is stale: nobody in this process claims the directory,
and nobody at all holds the file. -/
def staleLockFile? (world : World σ) (directory : Path) : Option Location :=
  if world.isClaimed directory then none
  else match world.files.entry true (Area.lockFile directory) with
    | .ok (location, .file identity) => if world.files.isHeld identity then none else some location
    | _ => none

/-- The places of the stale lock files of some directories. -/
def staleLockFiles (world : World σ) (directories : List Path) : List Location :=
  directories.filterMap world.staleLockFile?

theorem staleLockFiles_cons (world : World σ) (directory : Path) (others : List Path) :
    world.staleLockFiles (directory :: others) =
      (world.staleLockFile? directory).toList ++ world.staleLockFiles others := by
  rw [staleLockFiles, List.filterMap_cons]
  cases world.staleLockFile? directory <;> rfl

/-- The world without the entries at some locations. -/
def without (world : World σ) (gone : List Location) : World σ :=
  { world with files := world.files.without gone }

@[simp]
theorem files_without (world : World σ) (gone : List Location) :
    (world.without gone).files = world.files.without gone := rfl

@[simp]
theorem without_nil (world : World σ) : world.without [] = world := by
  simp [without]

theorem isClaimed_without (world : World σ) (gone : List Location) (directory : Path) :
    (world.without gone).isClaimed directory = world.isClaimed directory := rfl

theorem without_without (world : World σ) (gone more : List Location) :
    (world.without gone).without more = world.without (gone ++ more) := by
  simp only [without, FileSystem.without_without]

theorem staleLockFile?_eq_some_iff :
    world.staleLockFile? directory = some location ↔ world.isClaimed directory = false ∧
      ∃ identity, world.files.entry true (Area.lockFile directory) = .ok (location, .file identity) ∧
        world.files.isHeld identity = false := by
  rw [staleLockFile?]
  cases world.isClaimed directory with
  | true => simp
  | false =>
      simp only [Bool.false_eq_true, if_false, true_and]
      split
      · rename_i reached identity found
        simp only [found, Except.ok.injEq, Prod.mk.injEq, Node.file.injEq]
        cases held : world.files.isHeld identity <;> simp [held]
      · rename_i other
        simp only [reduceCtorEq, false_iff, not_exists, not_and]
        exact fun identity found => absurd found (other location identity)

/-- Of the files that are stale those that are not gone remain. -/
theorem staleLockFile?_without (wellFormed : world.files.WellFormed)
    (areFiles : world.files.AreFiles gone) (directory : Path) :
    (world.without gone).staleLockFile? directory =
      (world.staleLockFile? directory).filter fun location => location ∉ gone := by
  ext location
  rw [Option.filter_eq_some_iff, staleLockFile?_eq_some_iff, staleLockFile?_eq_some_iff]
  simp only [files_without, wellFormed.entry_without areFiles, isClaimed_without,
    FileSystem.isHeld, FileSystem.held_without, decide_eq_true_eq]
  constructor
  · rintro ⟨unclaimed, identity, ⟨found, outside⟩, free⟩
    exact ⟨⟨unclaimed, identity, found, free⟩, outside⟩
  · rintro ⟨⟨unclaimed, identity, found, free⟩, outside⟩
    exact ⟨unclaimed, identity, ⟨found, outside⟩, free⟩

/-- Some locations are all of stale lock files of directories in reach. -/
def AreStale (world : World σ) (root : Path) (gone : List Location) : Prop :=
  ∀ location ∈ gone, ∃ directory, world.files.Reachable root directory ∧
    world.staleLockFile? directory = some location

theorem AreStale.append {root : Path} (areStale : world.AreStale root gone)
    (reachable : world.files.Reachable root directory) :
    world.AreStale root (gone ++ (world.staleLockFile? directory).toList) := by
  intro location location_mem
  rcases List.mem_append.mp location_mem with old | new
  · exact areStale location old
  · exact ⟨directory, reachable, Option.mem_toList.mp new⟩

theorem AreStale.areFiles {root : Path} (stale : world.AreStale root gone)
    (wellFormed : world.files.WellFormed) : world.files.AreFiles gone := by
  intro location location_mem
  obtain ⟨directory, -, stale_eq⟩ := stale location location_mem
  obtain ⟨-, identity, found, -⟩ := staleLockFile?_eq_some_iff.mp stale_eq
  exact ⟨identity, FileSystem.resolve_sound wellFormed (FileSystem.entry_eq_ok.mp found)⟩

end World

namespace Cleanup

open FileSystem

variable {world after : World σ} {root path directory : Path} {top : Location} {gone : List Location}
  {trees visited : List (Depth × Path)} {cleaned : List Path} {bound : Nat} {stale : Bool}

/-! ## One directory -/

/-- Cleaning a directory takes its lock file away if it is stale. Only a directory in its place stops it. -/
theorem cleanDirectory_eq (wellFormed : world.files.WellFormed)
    (noLink : ¬world.files.NamesLink (Area.lockFile directory)) :
    cleanDirectory directory world =
      match world.staleLockFile? directory with
      | some location => .ok true (world.without [location])
      | none =>
          if !world.isClaimed directory && world.files.isDirectory (Area.lockFile directory) then
            .error (.io .isDirectory) world
          else .ok false world := by
  cases claimed : world.isClaimed directory with
  | true => simp [cleanDirectory, World.staleLockFile?, claimed]
  | false =>
      cases found : world.files.entry true (Area.lockFile directory) with
      | error failure =>
          simp [cleanDirectory, World.staleLockFile?, claimed, leadsSomewhere, isDirectory, found]
      | ok entry =>
          obtain ⟨location, node⟩ := entry
          cases node with
          | link target => exact absurd found entry_notLink
          | directory =>
              simp [cleanDirectory, World.staleLockFile?, claimed, leadsSomewhere, isDirectory, found,
                Action.ofFiles, FileLock.removeStale]
          | file identity =>
              cases held : world.files.isHeld identity with
              | true =>
                  simp [cleanDirectory, World.staleLockFile?, claimed, leadsSomewhere, isDirectory,
                    found, held, Action.ofFiles, FileLock.removeStale]
              | false =>
                  have place := isPlace_of_entry noLink found
                  have isFile : world.files.node? location = some (.file identity) :=
                    resolve_sound wellFormed (entry_eq_ok.mp found)
                  have removed := removeStale_of_free wellFormed noLink place isFile
                    (by simpa [isHeld] using held)
                  simp [cleanDirectory, World.staleLockFile?, claimed, leadsSomewhere, found, held,
                    Action.ofFiles, removed, without_singleton, World.without]

/-! ## All directories -/

theorem cleanPending_cons {pending children : List Path} {middle : World σ}
    (first : cleanDirectory directory world = .ok stale middle)
    (listed : middle.files.versionedChildren directory = .ok children) :
    cleanPending (bound + 1) (directory :: pending) world =
      match cleanPending bound (children ++ pending) middle with
      | .ok others last => .ok (if stale then directory :: others else others) last
      | .error error last => .error error last := by
  simp only [cleanPending, Action.bind_apply, first, Action.ofLook, listed, Action.pure_apply]
  cases cleanPending bound (children ++ pending) middle <;> rfl

theorem cleanDirectory_of_cleanPending {pending : List Path}
    (ran : cleanPending (bound + 1) (directory :: pending) world = .ok cleaned after) :
    ∃ stale middle, cleanDirectory directory world = .ok stale middle := by
  cases first : cleanDirectory directory world with
  | ok stale middle => exact ⟨stale, middle, rfl⟩
  | error error failed => simp [cleanPending, first] at ran

theorem map_children_append {names : List OsText} (childDepth : Depth) :
    ((names.map fun name => (childDepth, directory.join name)) ++ trees).map Prod.snd =
      names.map directory.join ++ trees.map Prod.snd := by
  simp [Function.comp_def]

/-- A working copy whose stale lock files can be taken away without taking a record away. -/
structure Cleanable (world : World σ) (root : Path) (top : Location) : Prop where
  wellFormed : world.files.WellFormed
  whole : world.files.Within root top root top
  plain : world.files.PlainReach root
  records : ∀ directory other location identity,
    world.files.Reachable root directory → world.files.Reachable root other →
      world.files.entry true (Area.entriesFile directory) = .ok (location, .file identity) →
        world.staleLockFile? other ≠ some location

section Cleanable

variable (cleanable : Cleanable world root top)

include cleanable

theorem Cleanable.spares (areStale : world.AreStale root gone) :
    world.files.SparesRecords root gone := by
  intro directory location identity reachable record_eq location_mem
  obtain ⟨other, otherReachable, stale_eq⟩ := areStale location location_mem
  exact cleanable.records directory other location identity reachable otherReachable record_eq stale_eq

/-- After some lock files are gone, a directory is cleaned as if they had never been there. -/
theorem Cleanable.cleanDirectory_without (areStale : world.AreStale root gone)
    (reachable : world.files.Reachable root directory) :
    cleanDirectory directory (world.without gone) =
      match (world.staleLockFile? directory).filter fun location => location ∉ gone with
      | some location => .ok true (world.without (gone ++ [location]))
      | none =>
          if !world.isClaimed directory && world.files.isDirectory (Area.lockFile directory) then
            .error (.io .isDirectory) (world.without gone)
          else .ok false (world.without gone) := by
  have wellFormed := cleanable.wellFormed
  have areFiles := areStale.areFiles wellFormed
  obtain ⟨location, within⟩ := reachable.within wellFormed cleanable.whole
  have noLink := (cleanable.plain.plainArea reachable within).not_namesLink_lockFile
  have noLinkLeft : ¬(world.without gone).files.NamesLink (Area.lockFile directory) :=
    fun linked => noLink (linked.congr areFiles.agreeOutside.sameTree.symm)
  rw [cleanDirectory_eq (wellFormed.without areFiles) noLinkLeft,
    World.staleLockFile?_without wellFormed areFiles, World.isClaimed_without, World.files_without,
    areFiles.isDirectory_without]
  simp only [World.without_without]

/-- What is in reach stays in reach when stale lock files are gone. -/
theorem Cleanable.listed (areStale : world.AreStale root gone)
    (reachable : world.files.Reachable root directory) {names : List OsText}
    (children : world.files.Subdirectories directory names) :
    (world.without gone).files.versionedChildren directory = .ok (names.map directory.join) := by
  have wellFormed := cleanable.wellFormed
  have areFiles := areStale.areFiles wellFormed
  obtain ⟨location, within⟩ := reachable.within wellFormed cleanable.whole
  exact (children.without wellFormed areFiles (cleanable.spares areStale) reachable).listed
    (wellFormed.without areFiles) within.absolute
    (entry_congr areFiles.agreeOutside.sameTree within.found)

/-- What cleaning a directory comes to when its own lock file is still there. -/
theorem Cleanable.cleanDirectory_ok (areStale : world.AreStale root gone)
    (reachable : world.files.Reachable root directory)
    (fresh : ∀ location, world.staleLockFile? directory = some location → location ∉ gone)
    (ran : cleanDirectory directory (world.without gone) = .ok stale after) :
    stale = (world.staleLockFile? directory).isSome ∧
      after = world.without (gone ++ (world.staleLockFile? directory).toList) ∧
      (!world.isClaimed directory && world.files.isDirectory (Area.lockFile directory)) = false := by
  rw [cleanable.cleanDirectory_without areStale reachable] at ran
  cases stale_eq : world.staleLockFile? directory with
  | some location =>
      have outside := fresh location stale_eq
      obtain ⟨-, identity, found, -⟩ := World.staleLockFile?_eq_some_iff.mp stale_eq
      simp only [stale_eq, Option.filter_some, outside, not_false_eq_true, decide_true, if_true,
        EStateM.Result.ok.injEq] at ran
      obtain ⟨rfl, rfl⟩ := ran
      exact ⟨rfl, rfl, by simp [isDirectory, found]⟩
  | none =>
      simp only [stale_eq, Option.filter_none] at ran
      split at ran
      · simp at ran
      · rename_i free
        rw [EStateM.Result.ok.injEq] at ran
        obtain ⟨rfl, rfl⟩ := ran
        exact ⟨rfl, by simp, by simpa using free⟩

/-- The directories that come in turn are cleaned one after another, each with what is below it, as if no lock
file had been gone before. -/
theorem Cleanable.cleanPending_ok (preorder : world.files.InPreorder trees visited)
    (endless : world.files.Endless root trees) (enough : visited.length ≤ bound)
    (areStale : world.AreStale root gone)
    (distinct : (gone ++ world.staleLockFiles (visited.map Prod.snd)).Nodup)
    (ran : cleanPending bound (trees.map Prod.snd) (world.without gone) = .ok cleaned after) :
    cleaned = (visited.map Prod.snd).filter (fun directory => (world.staleLockFile? directory).isSome) ∧
      after = world.without (gone ++ world.staleLockFiles (visited.map Prod.snd)) ∧
      ∀ tree ∈ visited,
        (!world.isClaimed tree.2 && world.files.isDirectory (Area.lockFile tree.2)) = false := by
  induction preorder generalizing bound gone cleaned with
  | done =>
      have stops : cleanPending bound [] (world.without gone) = .ok [] (world.without gone) := by
        cases bound <;> rfl
      rw [List.map_nil, stops, EStateM.Result.ok.injEq] at ran
      obtain ⟨rfl, rfl⟩ := ran
      simp [World.staleLockFiles]
  | leaf last further ih => exact absurd last endless.not_last
  | @branch depth childDepth directory names trees visited deeper children further ih =>
      have reachable := endless.head.2
      obtain ⟨bound, rfl⟩ : ∃ fewer, bound = fewer + 1 :=
        Nat.exists_eq_add_one_of_ne_zero (by simp at enough; omega)
      rw [List.map_cons, World.staleLockFiles_cons] at distinct
      obtain ⟨stale, middle, first⟩ := cleanDirectory_of_cleanPending ran
      have fresh : ∀ location, world.staleLockFile? directory = some location → location ∉ gone := by
        intro location stale_eq old
        rw [stale_eq] at distinct
        exact List.disjoint_of_nodup_append distinct old List.mem_cons_self
      obtain ⟨stale_eq, rfl, free⟩ := cleanable.cleanDirectory_ok areStale reachable fresh first
      have areStale' := areStale.append reachable
      rw [List.map_cons, cleanPending_cons first (cleanable.listed areStale' reachable children),
        ← map_children_append childDepth] at ran
      rw [← List.append_assoc] at distinct
      split at ran
      · rename_i others last second
        rw [EStateM.Result.ok.injEq] at ran
        obtain ⟨rfl, rfl⟩ := ran
        obtain ⟨others_eq, after_eq, others_free⟩ :=
          ih (endless.children children deeper) (by simpa using enough) areStale' distinct second
        refine ⟨?_, ?_, ?_⟩
        · rw [others_eq, stale_eq, List.map_cons, List.filter_cons]
        · rw [after_eq, List.map_cons, World.staleLockFiles_cons, List.append_assoc]
        · intro tree tree_mem
          rcases List.mem_cons.mp tree_mem with rfl | later
          · exact free
          · exact others_free tree later
      · simp at ran

/-- When all stale lock files are gone and nothing stands in the way, there is nothing to clean. -/
theorem Cleanable.cleanPending_settled (preorder : world.files.InPreorder trees visited)
    (endless : world.files.Endless root trees) (areStale : world.AreStale root gone)
    (settled : ∀ tree ∈ visited,
      (∀ location, world.staleLockFile? tree.2 = some location → location ∈ gone) ∧
        (!world.isClaimed tree.2 && world.files.isDirectory (Area.lockFile tree.2)) = false)
    (bound : Nat) :
    cleanPending bound (trees.map Prod.snd) (world.without gone) = .ok [] (world.without gone) := by
  induction preorder generalizing bound with
  | done => cases bound <;> rfl
  | leaf last further ih => exact absurd last endless.not_last
  | @branch depth childDepth directory names trees visited deeper children further ih =>
      have reachable := endless.head.2
      obtain ⟨taken, free⟩ := settled (depth, directory) List.mem_cons_self
      cases bound with
      | zero => rfl
      | succ bound =>
          have nothing :
              ((world.staleLockFile? directory).filter fun location => location ∉ gone) = none := by
            rw [Option.filter_eq_none_iff]
            intro location stale_eq
            simpa using taken location stale_eq
          have first : cleanDirectory directory (world.without gone) = .ok false (world.without gone) := by
            rw [cleanable.cleanDirectory_without areStale reachable, nothing]
            exact if_neg (Bool.eq_false_iff.mp free)
          have rest := ih (endless.children children deeper)
            (fun tree tree_mem => settled tree (List.mem_cons_of_mem _ tree_mem)) bound
          rw [List.map_cons, cleanPending_cons first (cleanable.listed areStale reachable children),
            ← map_children_append childDepth, rest]
          rfl

end Cleanable

/-! ## The whole working copy -/

/-- The directories that can be reached from a root, in pre-order. -/
structure Tour (files : FileSystem) (root : Path) (visited : List Path) : Prop where
  preorder : files.InPreorder [(.infinity, root)] (visited.map fun directory => (.infinity, directory))
  mem_iff : ∀ directory, directory ∈ visited ↔ files.Reachable root directory
  inOrder : visited.Pairwise fun left right => left.order right = .lt
  /-- No directory comes again under another path. -/
  once : visited.Pairwise fun left right => files.realPath? left ≠ files.realPath? right

theorem exists_tour {files : FileSystem} (wellFormed : files.WellFormed)
    (whole : files.Within root top root top) : ∃ visited, Tour files root visited := by
  obtain ⟨trees, preorder⟩ :=
    wellFormed.exists_inPreorder (files.nodes.length + 1) .infinity whole (by omega)
  have endless : files.Endless root trees := by
    apply preorder.endless
    intro tree tree_mem
    rw [List.mem_singleton.mp tree_mem]
    exact ⟨rfl, .root⟩
  have trees_eq : trees = (trees.map Prod.snd).map fun directory => (.infinity, directory) := by
    rw [List.map_map]
    refine (List.map_id trees).symm.trans (List.map_congr_left ?_)
    intro tree tree_mem
    exact Prod.ext (endless tree tree_mem).1 rfl
  refine ⟨trees.map Prod.snd, ⟨trees_eq ▸ preorder, ?_, ?_, ?_⟩⟩
  · intro directory
    rw [← preorder.mem_iff_reachable wellFormed whole, List.mem_map]
    constructor
    · rintro ⟨tree, tree_mem, rfl⟩
      rw [← (endless tree tree_mem).1]
      exact tree_mem
    · exact fun tree_mem => ⟨_, tree_mem, rfl⟩
  · exact preorder.inOrder wellFormed (by simpa using whole.absolute) (List.pairwise_singleton _ _)
  · rw [List.pairwise_map]
    refine (preorder.apart wellFormed whole).imp_of_mem ?_
    intro left right left_mem right_mem apart same
    obtain ⟨location, leftWithin⟩ := (endless left left_mem).2.within wellFormed whole
    obtain ⟨other, rightWithin⟩ := (endless right right_mem).2.within wellFormed whole
    rw [realPath_of_entry leftWithin.found, realPath_of_entry rightWithin.found, Option.some.injEq]
      at same
    obtain rfl := Location.path_inj (wellFormed.proper_of_node? (leftWithin.inside wellFormed))
      (wellFormed.proper_of_node? (rightWithin.inside wellFormed)) same
    exact apart leftWithin rightWithin

theorem Tour.unique {files : FileSystem} {visited others : List Path} (tour : Tour files root visited)
    (again : Tour files root others) : visited = others := by
  have same := congrArg (List.map Prod.snd) (tour.preorder.unique again.preorder)
  simpa [Function.comp_def] using same

/-- Different directories have different stale lock files. -/
theorem Cleanable.nodup_staleLockFiles {visited : List Path} (cleanable : Cleanable world root top)
    (tour : Tour world.files root visited) : (world.staleLockFiles visited).Nodup := by
  have wellFormed := cleanable.wellFormed
  -- the lock file of a directory stands where the directory is
  have placed : ∀ directory ∈ visited, ∀ location, world.staleLockFile? directory = some location →
      ∃ place, world.files.realPath? directory = some place.path ∧
        location = place ++ [Area.directoryName, "lock"] := by
    intro directory directory_mem location stale_eq
    have reachable := (tour.mem_iff directory).mp directory_mem
    obtain ⟨place, within⟩ := reachable.within wellFormed cleanable.whole
    have plain := cleanable.plain.plainArea reachable within
    obtain ⟨-, identity, found, -⟩ := World.staleLockFile?_eq_some_iff.mp stale_eq
    refine ⟨place, realPath_of_entry within.found, ?_⟩
    exact (isPlace_of_entry plain.not_namesLink_lockFile found).unique plain.isPlace_lockFile
  rw [World.staleLockFiles, List.Nodup, List.pairwise_filterMap]
  refine tour.once.imp_of_mem ?_
  intro left right left_mem right_mem apart location location_eq other other_eq same
  obtain ⟨place, place_eq, rfl⟩ := placed left left_mem location location_eq
  obtain ⟨place', place_eq', rfl⟩ := placed right right_mem other other_eq
  obtain rfl := List.append_cancel_right same
  exact apart (place_eq.trans place_eq'.symm)

theorem clean_of_canonical (canonical : world.files.canonical path = .ok root)
    (versioned : world.files.isVersioned root = true) :
    clean path world = cleanPending (world.files.nodes.length + 1) [root] world := by
  simp [clean, Action.ofOutcome, canonical, versioned]

theorem isVersioned_of_clean (canonical : world.files.canonical path = .ok root)
    (ran : clean path world = .ok cleaned after) : world.files.isVersioned root = true := by
  cases versioned : world.files.isVersioned root with
  | true => rfl
  | false => simp [clean, Action.ofOutcome, canonical, versioned] at ran

/-- Without its stale lock files a working copy has nothing to clean. -/
theorem Cleanable.clean_settled {visited : List Path} (cleanable : Cleanable world root top)
    (canonical : world.files.canonical path = .ok root) (tour : Tour world.files root visited)
    (endless : world.files.Endless root [(.infinity, root)])
    (areStale : world.AreStale root (world.staleLockFiles visited))
    (free : ∀ directory ∈ visited,
      (!world.isClaimed directory && world.files.isDirectory (Area.lockFile directory)) = false) :
    clean path (world.without (world.staleLockFiles visited)) =
      .ok [] (world.without (world.staleLockFiles visited)) := by
  have wellFormed := cleanable.wellFormed
  have areFiles := areStale.areFiles wellFormed
  have stillCanonical : (world.without (world.staleLockFiles visited)).files.canonical path = .ok root :=
    wellFormed.canonical_without areFiles canonical cleanable.whole.found
  obtain ⟨record, identity, record_eq⟩ := isFile_iff.mp cleanable.whole.versioned
  have stillVersioned : (world.without (world.staleLockFiles visited)).files.isVersioned root = true :=
    (wellFormed.isVersioned_without areFiles).mpr
      ⟨record, identity, record_eq, cleanable.spares areStale _ _ _ .root record_eq⟩
  rw [clean_of_canonical stillCanonical stillVersioned]
  refine cleanable.cleanPending_settled tour.preorder endless areStale ?_ _
  intro tree tree_mem
  obtain ⟨directory, directory_mem, rfl⟩ := List.mem_map.mp tree_mem
  exact ⟨fun location stale_eq => List.mem_filterMap.mpr ⟨directory, directory_mem, stale_eq⟩,
    free directory directory_mem⟩

/--
Cleaning up a working copy comes to every directory in reach once, in the order in which they would be locked,
and takes exactly the stale lock files away. It leaves nothing to clean. The condition on records is
that none of them is a link to a stale lock file.
-/
theorem clean_removes_stale (wellFormed : world.files.WellFormed)
    (canonical : world.files.canonical path = .ok root) (plain : world.files.PlainReach root)
    (records : ∀ directory other location identity,
      world.files.Reachable root directory → world.files.Reachable root other →
        world.files.entry true (Area.entriesFile directory) = .ok (location, .file identity) →
          world.staleLockFile? other ≠ some location)
    (ran : clean path world = .ok cleaned after) :
    ∃ visited, Tour world.files root visited ∧
      (∀ (other : World σ) (cancel : Option (Cancellation σ)) hierarchy last,
        other.files = world.files →
          Hierarchy.openAt cancel false .infinity path other = .ok hierarchy last →
            hierarchy.lockedPaths = visited) ∧
      cleaned = (visited.filter fun directory => (world.staleLockFile? directory).isSome) ∧
      after = world.without (world.staleLockFiles visited) ∧
      clean path after = .ok [] after := by
  have versioned := isVersioned_of_clean canonical ran
  have absolute := isAbsolute_canonical canonical
  obtain ⟨top, found⟩ := entry_of_isVersioned absolute versioned
  have whole : world.files.Within root top root top :=
    ⟨absolute, found, versioned, [], by simp, by simp⟩
  have cleanable : Cleanable world root top := ⟨wellFormed, whole, plain, records⟩
  obtain ⟨visited, tour⟩ := exists_tour wellFormed whole
  have paths : (visited.map fun directory => (Depth.infinity, directory)).map Prod.snd = visited := by
    simp [Function.comp_def]
  have endless : world.files.Endless root [(.infinity, root)] := by
    intro tree tree_mem
    rw [List.mem_singleton.mp tree_mem]
    exact ⟨rfl, .root⟩
  have none_gone : world.AreStale root [] := by simp [World.AreStale]
  have areStale : world.AreStale root (world.staleLockFiles visited) := by
    intro location location_mem
    obtain ⟨directory, directory_mem, stale_eq⟩ := List.mem_filterMap.mp location_mem
    exact ⟨directory, (tour.mem_iff directory).mp directory_mem, stale_eq⟩
  rw [clean_of_canonical canonical versioned] at ran
  obtain ⟨cleaned_eq, after_eq, free⟩ := cleanable.cleanPending_ok tour.preorder endless
    (tour.preorder.length_le wellFormed whole) none_gone
    (by simpa [paths] using cleanable.nodup_staleLockFiles tour) (by simpa using ran)
  rw [paths] at cleaned_eq after_eq
  refine ⟨visited, tour, ?_, cleaned_eq, by simpa using after_eq, ?_⟩
  · intro other cancel hierarchy last same opened
    rw [← paths]
    rw [← same] at wellFormed canonical whole
    exact Hierarchy.lockedPaths_openAt_reading wellFormed canonical whole (same ▸ tour.preorder) opened
  · rw [List.nil_append] at after_eq
    have cleared : ∀ directory ∈ visited, (!world.isClaimed directory &&
        world.files.isDirectory (Area.lockFile directory)) = false :=
      fun directory directory_mem => free (.infinity, directory) (List.mem_map_of_mem directory_mem)
    rw [after_eq]
    exact cleanable.clean_settled canonical tour endless areStale cleared

/-! ## Plain areas -/

section Plain

variable (plain : world.files.PlainAreas top) (wellFormed : world.files.WellFormed)
  (whole : world.files.Within root top root top)

include plain wellFormed whole

theorem plainReach_of_plainAreas : world.files.PlainReach root := by
  have area : ∀ directory location, world.files.Reachable root directory →
      world.files.entry true directory = .ok (location, .directory) →
        world.files.PlainArea directory location := by
    intro directory location reachable found
    obtain ⟨reached, within⟩ := reachable.within wellFormed whole
    have same := within.found.symm.trans found
    rw [Except.ok.injEq, Prod.mk.injEq] at same
    exact same.1 ▸ within.plainArea plain
  exact ⟨fun directory location target reachable found => (area _ _ reachable found).area target,
    fun directory location target reachable found => (area _ _ reachable found).lockFile target⟩

/-- Where no link stands in an administrative directory, a record is not a lock file. -/
theorem records_of_plainAreas {other : Path} {location : Location} {identity : Nat}
    (reachable : world.files.Reachable root directory) (otherReachable : world.files.Reachable root other)
    (record : world.files.entry true (Area.entriesFile directory) = .ok (location, .file identity)) :
    world.staleLockFile? other ≠ some location := by
  intro stale_eq
  obtain ⟨place, within⟩ := reachable.within wellFormed whole
  obtain ⟨place', otherWithin⟩ := otherReachable.within wellFormed whole
  obtain ⟨-, identity', found, -⟩ := World.staleLockFile?_eq_some_iff.mp stale_eq
  have plainOther := otherWithin.plainArea plain
  have lock_eq := (isPlace_of_entry plainOther.not_namesLink_lockFile found).unique
    plainOther.isPlace_lockFile
  obtain ⟨names, rfl, -⟩ := within.below
  have record_eq := plain.location_content within.absolute within.found properName_entries
    (entry_eq_ok.mp record)
  have last_eq := congrArg List.getLast? (record_eq.symm.trans lock_eq)
  simp at last_eq

end Plain

open Hierarchy (loopingCopy wellFormed_loopingCopy plainAreas_loopingCopy)

/-- The one lock file is stale. The path leads to the working copy through a link in it. -/
theorem clean_removes_stale_of_loopingCopy :
    loopingCopy.files.WellFormed ∧ loopingCopy.files.canonical ⟨"/wc/loop"⟩ = .ok ⟨"/wc"⟩ ∧
    loopingCopy.files.PlainReach ⟨"/wc"⟩ ∧
    (∀ directory other location identity, loopingCopy.files.Reachable ⟨"/wc"⟩ directory →
      loopingCopy.files.Reachable ⟨"/wc"⟩ other →
        loopingCopy.files.entry true (Area.entriesFile directory) = .ok (location, .file identity) →
          loopingCopy.staleLockFile? other ≠ some location) ∧
    ∃ after, clean ⟨"/wc/loop"⟩ loopingCopy = .ok [⟨"/wc/a/c"⟩] after ∧
      ∃ visited, Tour loopingCopy.files ⟨"/wc"⟩ visited ∧
        (∀ (other : World Nat) (cancel : Option (Cancellation Nat)) hierarchy last,
          other.files = loopingCopy.files →
            Hierarchy.openAt cancel false .infinity ⟨"/wc/loop"⟩ other = .ok hierarchy last →
              hierarchy.lockedPaths = visited) ∧
        [⟨"/wc/a/c"⟩] =
          (visited.filter fun directory => (loopingCopy.staleLockFile? directory).isSome) ∧
        after = loopingCopy.without (loopingCopy.staleLockFiles visited) ∧
        clean ⟨"/wc/loop"⟩ after = .ok [] after := by
  have canonical : loopingCopy.files.canonical ⟨"/wc/loop"⟩ = .ok ⟨"/wc"⟩ := by decide +kernel
  have whole : loopingCopy.files.Within ⟨"/wc"⟩ ["wc"] ⟨"/wc"⟩ ["wc"] :=
    ⟨by decide, by decide +kernel, by decide +kernel, [], by simp, by simp⟩
  have plain := plainReach_of_plainAreas (plainAreas_loopingCopy ["wc"]) wellFormed_loopingCopy whole
  have records : ∀ directory other location identity, loopingCopy.files.Reachable ⟨"/wc"⟩ directory →
      loopingCopy.files.Reachable ⟨"/wc"⟩ other →
        loopingCopy.files.entry true (Area.entriesFile directory) = .ok (location, .file identity) →
          loopingCopy.staleLockFile? other ≠ some location :=
    fun _ _ _ _ => records_of_plainAreas (plainAreas_loopingCopy ["wc"]) wellFormed_loopingCopy whole
  obtain ⟨cleaned, ran, cleaned_eq⟩ := ok_of_yields (clean ⟨"/wc/loop"⟩) loopingCopy
    (fun cleaned => cleaned = [⟨"/wc/a/c"⟩]) (by decide +kernel)
  replace cleaned_eq := of_decide_eq_true cleaned_eq
  subst cleaned_eq
  exact ⟨wellFormed_loopingCopy, canonical, plain, records, _, ran,
    clean_removes_stale wellFormed_loopingCopy canonical plain records ran⟩

/-! ## A record that is a lock file -/

/-- The record of the working copy is a link to its lock file, which is stale. -/
def recordAtLock : World Unit where
  files := {
    nodes := [(["wc"], .directory), (["wc", ".svn"], .directory), (["wc", ".svn", "lock"], .file 0),
      (["wc", ".svn", "entries"], .link "lock")]
    contents := []
    nextFile := 1
    held := []
    current := [] }
  claims := []
  environment := default
  caller := ()

/-- Without its record the working copy is none any more, so it cannot be cleaned up again. -/
theorem clean_takes_record :
    recordAtLock.files.WellFormed ∧ recordAtLock.files.canonical ⟨"/wc"⟩ = .ok ⟨"/wc"⟩ ∧
    (∀ location target, recordAtLock.files.node? location = some (.link target) →
      location = ["wc", ".svn", "entries"]) ∧
    (∀ location, recordAtLock.files.node? location = some (.file 0) →
      location = ["wc", ".svn", "lock"]) ∧
    ∃ after, clean ⟨"/wc"⟩ recordAtLock = .ok [⟨"/wc"⟩] after ∧
      ∃ error last, clean ⟨"/wc"⟩ after = .error error last := by
  have nodes : ∀ location node, recordAtLock.files.node? location = some node → node ≠ .directory →
      (location, node) ∈ recordAtLock.files.nodes := by
    intro location node inside notDirectory
    rcases eq_or_ne location [] with rfl | nonroot
    · rw [node?_nil, Option.some.injEq] at inside
      exact absurd inside.symm notDirectory
    · exact mem_of_node? nonroot inside
  obtain ⟨cleaned, ran, cleaned_eq⟩ := ok_of_yields (clean ⟨"/wc"⟩) recordAtLock
    (fun cleaned => cleaned = [⟨"/wc"⟩]) (by decide +kernel)
  obtain ⟨error, failed⟩ := error_of_not_yields (clean ⟨"/wc"⟩)
    (stateAfter (clean ⟨"/wc"⟩) recordAtLock) (by decide +kernel)
  replace cleaned_eq := of_decide_eq_true cleaned_eq
  subst cleaned_eq
  refine ⟨by decide +kernel, by decide +kernel, ?_, ?_, _, ran, error, _, failed⟩
  · intro location target isLink
    have listed := nodes location _ isLink (by simp)
    simp [recordAtLock] at listed
    exact listed.1
  · intro location isFile
    have listed := nodes location _ isFile (by simp)
    simpa [recordAtLock] using listed

end Cleanup

end Checkout
