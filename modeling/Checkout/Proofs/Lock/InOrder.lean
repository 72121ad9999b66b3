import Checkout.Proofs.Lock.Trail

/-!
# Opening hierarchies in pre-order

Opening a hierarchy tries the directories of a tree in pre-order and asks the caller before each of them. The
first one that stops it ends the operation, which leaves nothing locked; if none does, all of them are
locked, and the hierarchy lists them in the same order, as the order of paths is the pre-order of the tree.
-/

namespace Checkout

variable {σ : Type}

namespace Hierarchy

/-! ## The tree that is locked -/

/-- The ways to open a hierarchy. -/
inductive Opener where
  /-- For a versioned directory. -/
  | direct
  /-- For a path that may not be one. -/
  | probing

def Opener.run (opener : Opener) (cancel : Option (Cancellation σ)) (write : Bool) (depth : Depth)
    (path : Path) : Action σ Hierarchy :=
  match opener with
  | .direct => openAt cancel write depth path
  | .probing => probeOpen cancel write depth path

/-- The root of the tree that is locked for a path, with the depth it is locked to. -/
inductive Opener.Targets (files : FileSystem) (depth : Depth) (path : Path) :
    Opener → Depth → Path → Prop where
  | direct {root : Path} (canonical : files.canonical path = .ok root) :
      Targets files depth path .direct depth root
  /-- For a path that is neither versioned nor a directory, the nearest directory is locked alone. -/
  | probing {real nearest root : Path} (canonical : files.canonical path = .ok real)
      (above : files.nearestVersioned? real = some nearest)
      (canonicalAbove : files.canonical nearest = .ok root) :
      Targets files depth path .probing
        (if files.isVersioned real ∨ files.isDirectory real then depth else .empty) root

variable {files : FileSystem} {opener : Opener} {cancel : Option (Cancellation σ)} {write : Bool}
  {depth treeDepth : Depth} {path real root : Path} {world : World σ} {locks : List AreaLock}
  {visited : List (Depth × Path)}

theorem probeTarget_eq (depth : Depth) (canonical : files.canonical path = .ok real) :
    probeTarget files depth path = (files.nearestVersioned? real).map fun nearest =>
      (if files.isVersioned real ∨ files.isDirectory real then depth else .empty, nearest) := by
  rw [FileSystem.nearestVersioned?_eq (FileSystem.isAbsolute_canonical canonical)]
  cases versioned : files.isVersioned real <;> simp [probeTarget, canonical, versioned]

theorem openAt_of_canonical (cancel : Option (Cancellation σ)) (write : Bool) (depth : Depth)
    (canonical : world.files.canonical path = .ok root) :
    openAt cancel write depth path world =
      match AreaLock.lockTree cancel write depth root world with
      | .ok locks after => .ok (insertAll { root, locks := [] } locks) after
      | .error error after => .error error after := by
  simp only [openAt, Action.bind_apply, Action.ofLook, canonical]
  cases AreaLock.lockTree cancel write depth root world <;> rfl

/-- However a hierarchy is opened, its locks are those of its tree. -/
theorem Opener.run_eq (cancel : Option (Cancellation σ)) (write : Bool)
    (targets : opener.Targets world.files depth path treeDepth root) :
    opener.run cancel write depth path world =
      match AreaLock.lockTree cancel write treeDepth root world with
      | .ok locks after => .ok (insertAll { root, locks := [] } locks) after
      | .error error after => .error error after := by
  cases targets with
  | direct canonical => exact openAt_of_canonical cancel write depth canonical
  | probing canonical above canonicalAbove =>
      have target_eq := probeTarget_eq depth canonical
      rw [above, Option.map_some] at target_eq
      rcases probeOpen_apply cancel write depth path world with
        ⟨none, -⟩ | ⟨depth', directory, some, same⟩
      · simp [target_eq] at none
      · rw [target_eq, Option.some.injEq, Prod.mk.injEq] at some
        obtain ⟨rfl, rfl⟩ := some
        rw [Opener.run, same]
        exact openAt_of_canonical cancel write _ canonicalAbove

theorem Opener.Targets.isAbsolute (targets : opener.Targets files depth path treeDepth root) :
    root.isAbsolute = true := by
  cases targets with
  | direct canonical => exact FileSystem.isAbsolute_canonical canonical
  | probing _ _ canonical => exact FileSystem.isAbsolute_canonical canonical

/-! ## The order of the record -/

/-- Locks that are entered in the order of paths are on record in that order. -/
theorem locks_insertAll_of_strict (root : Path)
    (inOrder : locks.Pairwise fun left right => left.path.order right.path = .lt) :
    (insertAll { root, locks := [] } locks).locks = locks := by
  have distinct : (locks.map AreaLock.key).Nodup := by
    rw [List.Nodup, List.pairwise_map]
    refine inOrder.imp ?_
    intro left right less same
    rw [Path.order_congr_left same] at less
    exact Path.not_order_self _ less
  have empty : Sorted { root, locks := [] } := List.Pairwise.nil
  refine eq_of_strict (fun left right : AreaLock => left.path.order right.path)
    (empty.insertAll locks) inOrder ?_
  intro lock
  constructor
  · intro recorded
    simpa using mem_of_mem_insertAll recorded
  · exact mem_insertAll distinct

/--
Opening a hierarchy with a versioned root tries the directories of its tree in pre-order, of which there is
just one. Before each of them the caller is asked once. The first that stops the operation, as things were
before it, ends it; otherwise all of them are locked and listed in this order.
-/
theorem Opener.run_inPreorder (cancel : Option (Cancellation σ)) (write : Bool)
    (wellFormed : world.files.WellFormed)
    (targets : opener.Targets world.files depth path treeDepth root)
    (versioned : world.files.isVersioned root = true)
    (plain : ∀ top, world.files.entry true root = .ok (top, .directory) →
      world.files.PlainAreas top) :
    ∃ visited,
      (∀ other, world.files.InPreorder [(treeDepth, root)] other ↔ other = visited) ∧
      (∀ asked error, Descent.StopsAt world cancel write visited asked error →
        ∃ after, opener.run cancel write depth path world = .error error after ∧
          Descent.Unlocked world cancel visited asked after) ∧
      (Descent.ClearUpTo world cancel write visited visited.length →
        ∃ hierarchy after, opener.run cancel write depth path world = .ok hierarchy after ∧
          hierarchy.root = root ∧ hierarchy.lockedPaths = visited.map Prod.snd ∧
          Descent.Locked world cancel write visited hierarchy.locks after) := by
  obtain ⟨top, visited, survey⟩ :=
    exists_survey wellFormed treeDepth targets.isAbsolute versioned plain
  refine ⟨visited, ?_, ?_, ?_⟩
  · intro other
    constructor
    · exact fun preorder => preorder.unique survey.preorder
    · rintro rfl
      exact survey.preorder
  · intro asked error stops
    obtain ⟨after, ran, unlocked⟩ := Descent.lockTree_of_stopsAt survey stops
    exact ⟨after, by rw [Opener.run_eq cancel write targets, ran], unlocked⟩
  · intro clear
    obtain ⟨locks, after, ran, locked⟩ := Descent.lockTree_of_clear survey clear
    have paths : locks.map AreaLock.path = visited.map Prod.snd := by
      rw [← locked.trees, List.map_map]
      rfl
    have inOrder : locks.Pairwise fun left right => left.path.order right.path = .lt := by
      have inOrder := survey.inOrder
      rw [← paths, List.pairwise_map] at inOrder
      exact inOrder
    have recorded := locks_insertAll_of_strict root inOrder
    have allOpen : locks.filter AreaLock.isOpen = locks := by
      apply List.filter_eq_self.mpr
      intro lock lock_mem
      obtain ⟨-, held, held_eq, -⟩ := locked.held lock lock_mem
      simp [AreaLock.isOpen, held_eq]
    refine ⟨_, after, by rw [Opener.run_eq cancel write targets, ran], root_insertAll _ _, ?_, ?_⟩
    · rw [lockedPaths, openLocks, recorded, allOpen, paths]
    · rw [recorded]
      exact locked

/-! ## A working copy with a link to itself -/

/-- Links and unversioned directories do not count, and `a/c` comes before `a-b`. The caller counts. -/
def loopingCopy : World Nat where
  files := {
    nodes := [(["wc"], .directory), (["wc", ".svn"], .directory),
      (["wc", ".svn", "entries"], .file 0), (["wc", "a-b"], .directory),
      (["wc", "a-b", ".svn"], .directory), (["wc", "a-b", ".svn", "entries"], .file 1),
      (["wc", "a"], .directory), (["wc", "a", ".svn"], .directory),
      (["wc", "a", ".svn", "entries"], .file 2), (["wc", "a", "c"], .directory),
      (["wc", "a", "c", ".svn"], .directory), (["wc", "a", "c", ".svn", "entries"], .file 3),
      (["wc", "a", "c", ".svn", "lock"], .file 4), (["wc", "loop"], .link "/wc"),
      (["wc", "plain"], .directory)]
    contents := []
    nextFile := 5
    held := []
    current := [] }
  claims := []
  environment := default
  caller := 0

/-- The caller calls the operation off before the fourth directory. -/
def afterThree : Cancellation Nat := fun asked => (asked = 3, asked + 1)

theorem wellFormed_loopingCopy : loopingCopy.files.WellFormed := by decide +kernel

theorem plainAreas_loopingCopy (top : Location) : loopingCopy.files.PlainAreas top := by
  apply FileSystem.plainAreas_of_nodes
  · intro location target isLink
    obtain ⟨rfl, -⟩ : location = ["wc", "loop"] ∧ target = "/wc" := by
      simpa [loopingCopy] using isLink
    decide
  · intro location other identity isFile otherFile
    simp [loopingCopy] at isFile otherFile
    grind

/-- The path leads through a link to a directory that is not versioned, so the working copy above it is opened. -/
theorem Opener.run_inPreorder_of_loopingCopy :
    loopingCopy.files.WellFormed ∧
    Opener.Targets loopingCopy.files .infinity ⟨"/wc/loop/plain"⟩ .probing .infinity ⟨"/wc"⟩ ∧
    loopingCopy.files.isVersioned ⟨"/wc"⟩ = true ∧
    (∀ top, loopingCopy.files.PlainAreas top) ∧
    ∃ visited,
      (∀ other, loopingCopy.files.InPreorder [(.infinity, ⟨"/wc"⟩)] other ↔ other = visited) ∧
      (∀ asked error, Descent.StopsAt loopingCopy (some afterThree) true visited asked error →
        ∃ after, Opener.probing.run (some afterThree) true .infinity ⟨"/wc/loop/plain"⟩ loopingCopy =
            .error error after ∧
          Descent.Unlocked loopingCopy (some afterThree) visited asked after) ∧
      (Descent.ClearUpTo loopingCopy (some afterThree) true visited visited.length →
        ∃ hierarchy after,
          Opener.probing.run (some afterThree) true .infinity ⟨"/wc/loop/plain"⟩ loopingCopy =
            .ok hierarchy after ∧
          hierarchy.root = ⟨"/wc"⟩ ∧ hierarchy.lockedPaths = visited.map Prod.snd ∧
          Descent.Locked loopingCopy (some afterThree) true visited hierarchy.locks after) := by
  have versioned : loopingCopy.files.isVersioned ⟨"/wc"⟩ = true := by decide +kernel
  have canonical : loopingCopy.files.canonical ⟨"/wc/loop/plain"⟩ = .ok ⟨"/wc/plain"⟩ := by
    decide +kernel
  have above : loopingCopy.files.nearestVersioned? ⟨"/wc/plain"⟩ = some ⟨"/wc"⟩ := by decide +kernel
  have canonicalAbove : loopingCopy.files.canonical ⟨"/wc"⟩ = .ok ⟨"/wc"⟩ := by decide +kernel
  have isDirectory : loopingCopy.files.isDirectory ⟨"/wc/plain"⟩ = true := by decide +kernel
  have targets :
      Opener.Targets loopingCopy.files .infinity ⟨"/wc/loop/plain"⟩ .probing .infinity ⟨"/wc"⟩ := by
    have probed : Opener.Targets loopingCopy.files .infinity _ .probing _ _ :=
      .probing canonical above canonicalAbove
    rwa [if_pos (Or.inr isDirectory)] at probed
  exact ⟨wellFormed_loopingCopy, targets, versioned, plainAreas_loopingCopy,
    Opener.run_inPreorder (some afterThree) true wellFormed_loopingCopy targets versioned
      fun top _ => plainAreas_loopingCopy top⟩

example :
    yields (Opener.probing.run none true .infinity ⟨"/wc/loop/plain"⟩) loopingCopy (fun hierarchy =>
      hierarchy.lockedPaths = [⟨"/wc"⟩, ⟨"/wc/a"⟩, ⟨"/wc/a/c"⟩, ⟨"/wc/a-b"⟩]) = true := by
  decide +kernel

end Hierarchy

end Checkout
