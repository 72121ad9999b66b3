import Checkout.Proofs.Lock.Borrowing
import Checkout.Proofs.Lock.Rooted
import Checkout.Proofs.Path.Order

/-!
# Closing the locks below a directory

A lock is closed with all open locks below it, in the reverse of the order of paths, so that a directory
is given back after everything inside it. A lock file that cannot be removed is reported, the first one
of them, but it does not end the sweep, and its lock is given back like the others.
-/

namespace Checkout

variable {σ : Type}

/-! ## Lock files -/

namespace FileSystem

/-- Unlinking changes nothing, or takes away the entry at the place that the path names. -/
theorem unlink_at_place (path : Path) (files : FileSystem) :
    stateAfter (unlink path) files = files ∨
      ∃ location, files.IsPlace path location ∧
        stateAfter (unlink path) files = files.erase location := by
  cases placed : files.place path with
  | error failure => exact Or.inl (by simp [stateAfter, unlink, placed])
  | ok place =>
      obtain ⟨directory, name?, slash⟩ := place
      cases name? with
      | none => exact Or.inl (by simp [stateAfter, unlink, placed])
      | some name =>
          cases entry : files.node? (directory ++ [name]) with
          | none => exact Or.inl (by simp [stateAfter, unlink, placed, Place.location, entry])
          | some node =>
              by_cases fit : node ≠ .directory ∧ slash = false
              · obtain ⟨leaf, rfl⟩ := fit
                refine Or.inr ⟨directory ++ [name], ⟨directory, name, placed, rfl⟩, ?_⟩
                cases node <;> simp_all [stateAfter, unlink, Place.location]
              · left
                cases node <;> simp_all [stateAfter, unlink, Place.location]

end FileSystem

namespace FileLock

variable {files : FileSystem}

/-- Removing a locked file takes an entry away only at the place that the path of the lock names. -/
theorem node?_remove (lock : FileLock) (files : FileSystem) (location : Location) :
    (stateAfter lock.remove files).node? location = files.node? location ∨
      files.IsPlace lock.path location ∧ (stateAfter lock.remove files).node? location = none := by
  rw [stateAfter_remove, FileSystem.node?_unhold]
  rcases FileSystem.unlink_at_place lock.path files with unchanged | ⟨gone, place, erased⟩
  · exact Or.inl (by rw [unchanged])
  · rw [erased]
    by_cases here : location = gone
    · rw [here, FileSystem.node?_erase_self place.nonroot]
      exact Or.inr ⟨place, rfl⟩
    · exact Or.inl (FileSystem.node?_erase_of_ne here)

theorem held_remove (lock : FileLock) (files : FileSystem) (identity : Nat) :
    identity ∈ (stateAfter lock.remove files).held ↔
      identity ∈ files.held ∧ identity ≠ lock.identity := by
  have unlinked : (stateAfter (FileSystem.unlink lock.path) files).held = files.held := by
    rcases FileSystem.unlink_at_place lock.path files with unchanged | ⟨gone, place, erased⟩
    · rw [unchanged]
    · rw [erased]
      rfl
  rw [stateAfter_remove, FileSystem.unhold, unlinked]
  simp

end FileLock

/-! ## Giving locks back -/

namespace AreaLock

variable {lock : AreaLock} {locks : List AreaLock} {world : World σ}

/-- What comes of removing the lock file of a lock; there is nothing to do if it has none. -/
def removal (lock : AreaLock) (files : FileSystem) : Except Error Unit :=
  match lock.held.bind DirectoryLock.file with
  | none => .ok ()
  | some file =>
      match file.remove files with
      | .ok () _ => .ok ()
      | .error error _ => .error error

/-- Giving an open lock back fails exactly if its lock file cannot be removed. -/
theorem release_apply (isOpen : lock.isOpen = true) (world : World σ) :
    lock.release world = match lock.removal world.files with
      | .ok () => .ok () (stateAfter lock.release world)
      | .error error => .error error (stateAfter lock.release world) := by
  obtain ⟨held, held_eq⟩ := Option.isSome_iff_exists.mp isOpen
  cases file_eq : held.file with
  | none =>
      simp [stateAfter, release, removal, held_eq, file_eq, DirectoryLock.release, Action.ofOutcome]
  | some file =>
      cases removed : file.remove world.files <;>
        simp [stateAfter, release, removal, held_eq, file_eq, removed, DirectoryLock.release,
          Action.outcome, Action.ofFiles, Action.ofOutcome]

/-- The first error in removing the lock files of some locks that are given back one after another. -/
inductive FirstFailure : List AreaLock → World σ → Error → Prop where
  | here {lock : AreaLock} {rest : List AreaLock} {world : World σ} {error : Error}
      (failed : lock.removal world.files = .error error) : FirstFailure (lock :: rest) world error
  | later {lock : AreaLock} {rest : List AreaLock} {world : World σ} {error : Error}
      (removed : lock.removal world.files = .ok ())
      (further : FirstFailure rest (stateAfter lock.release world) error) :
      FirstFailure (lock :: rest) world error

theorem firstFailure_cons {rest : List AreaLock} {error : Error} :
    FirstFailure (lock :: rest) world error ↔
      lock.removal world.files = .error error ∨
        lock.removal world.files = .ok () ∧
          FirstFailure rest (stateAfter lock.release world) error := by
  constructor
  · rintro (failed | ⟨removed, further⟩)
    · exact Or.inl failed
    · exact Or.inr ⟨removed, further⟩
  · rintro (failed | ⟨removed, further⟩)
    · exact .here failed
    · exact .later removed further

/-- Open locks are all given back, whatever fails, and the first failure is the result. -/
theorem releaseAll_eq (allOpen : ∀ lock ∈ locks, lock.isOpen = true) (world : World σ) :
    ∃ failure, releaseAll locks world = .ok failure (giveBack locks world) ∧
      ∀ error, failure = some error ↔ FirstFailure locks world error := by
  induction locks generalizing world with
  | nil => exact ⟨none, rfl, fun error => ⟨by simp, fun failed => nomatch failed⟩⟩
  | cons lock rest ih =>
      have released := release_apply (allOpen lock List.mem_cons_self) world
      have restOpen := fun other mem => allOpen other (List.mem_cons_of_mem lock mem)
      obtain ⟨failure, ran, first⟩ := ih restOpen (stateAfter lock.release world)
      cases removed : lock.removal world.files with
      | ok _ =>
          simp only [removed] at released
          refine ⟨failure, ?_, ?_⟩
          · simp [releaseAll, Action.outcome, released, ran, giveBack]
          · intro error
            simp [firstFailure_cons, removed, first]
      | error error =>
          simp only [removed] at released
          refine ⟨some error, ?_, ?_⟩
          · simp [releaseAll, Action.outcome, released, ran, giveBack]
          · intro other
            simp [firstFailure_cons, removed]

theorem files_release (lock : AreaLock) (world : World σ) :
    (stateAfter lock.release world).files = match lock.held.bind DirectoryLock.file with
      | none => world.files
      | some file => stateAfter file.remove world.files := by
  cases held_eq : lock.held with
  | none => simp [stateAfter, release, held_eq]
  | some held =>
      rw [release, held_eq, DirectoryLock.stateAfter_release]
      rfl

/-- When locks are given back, an entry goes only if the lock file of one of them has its place at that
point. -/
theorem node?_giveBack (locks : List AreaLock) (world : World σ) (location : Location) :
    (giveBack locks world).files.node? location = world.files.node? location ∨
      (giveBack locks world).files.node? location = none ∧
        ∃ front lock back file, locks = front ++ lock :: back ∧
          lock.held.bind DirectoryLock.file = some file ∧
          (giveBack front world).files.IsPlace file.path location := by
  induction locks generalizing world with
  | nil => exact Or.inl rfl
  | cons lock rest ih =>
      change (giveBack rest (stateAfter lock.release world)).files.node? location = _ ∨
        (giveBack rest (stateAfter lock.release world)).files.node? location = _ ∧ _
      rcases ih (stateAfter lock.release world) with
        kept | ⟨gone, front, other, back, file, rfl, file_eq, place⟩
      · rw [kept, files_release]
        cases file_eq : lock.held.bind DirectoryLock.file with
        | none => exact Or.inl rfl
        | some file =>
            refine (file.node?_remove world.files location).imp_right ?_
            rintro ⟨place, gone⟩
            exact ⟨gone, [], lock, rest, file, rfl, file_eq, place⟩
      · exact Or.inr ⟨gone, lock :: front, other, back, file, rfl, file_eq, place⟩

/-- When locks are given back, what is let go of is the files that they hold. -/
theorem held_giveBack (locks : List AreaLock) (world : World σ) (identity : Nat) :
    identity ∈ (giveBack locks world).files.held ↔
      identity ∈ world.files.held ∧ ∀ file ∈ fileLocks locks, identity ≠ file.identity := by
  induction locks generalizing world with
  | nil => simp [giveBack, fileLocks]
  | cons lock rest ih =>
      change identity ∈ (giveBack rest (stateAfter lock.release world)).files.held ↔ _
      rw [ih, files_release]
      cases file_eq : lock.held.bind DirectoryLock.file with
      | none => simp [fileLocks, file_eq]
      | some file =>
          simp [fileLocks, file_eq, FileLock.held_remove, and_assoc]

end AreaLock

/-! ## The order of records -/

namespace Hierarchy

variable {hierarchy : Hierarchy}

instance : Std.TransCmp fun left right : AreaLock => left.path.order right.path where
  eq_swap := Std.OrientedCmp.eq_swap
  isLE_trans := Std.TransCmp.isLE_trans

/-- The locks on record are in the order of paths, one for each directory. -/
def Sorted (hierarchy : Hierarchy) : Prop :=
  hierarchy.locks.Pairwise fun left right => left.path.order right.path = .lt

theorem sorted_iff_paths :
    hierarchy.Sorted ↔
      (hierarchy.locks.map AreaLock.path).Pairwise fun left right => left.order right = .lt := by
  rw [Sorted, List.pairwise_map]

theorem Sorted.insert (inOrder : hierarchy.Sorted) (lock : AreaLock) :
    (hierarchy.insert lock).Sorted := by
  apply insertSorted_strict (inOrder.filter _)
  intro other other_mem same
  have differs := (List.mem_filter.mp other_mem).2
  simp [Path.same, Path.same_of_order_eq same] at differs

theorem Sorted.insertAll (inOrder : hierarchy.Sorted) (locks : List AreaLock) :
    (hierarchy.insertAll locks).Sorted := by
  induction locks generalizing hierarchy with
  | nil => exact inOrder
  | cons lock rest ih => exact ih (inOrder.insert lock)

theorem Sorted.closedUnder (inOrder : hierarchy.Sorted) (path : Path) :
    (hierarchy.closedUnder path).Sorted := by
  rwa [sorted_iff_paths, paths_closedUnder, ← sorted_iff_paths]

/-- The open locks at and below a directory, in the order in which they are closed. -/
def closingOrder (hierarchy : Hierarchy) (directory : Path) : List AreaLock :=
  (hierarchy.openUnder directory).reverse

theorem mem_closingOrder {directory : Path} {lock : AreaLock} :
    lock ∈ hierarchy.closingOrder directory ↔
      lock ∈ hierarchy.locks ∧ lock.isOpen = true ∧ lock.path.isUnder directory = true := by
  rw [closingOrder, List.mem_reverse, openUnder, List.mem_filter, mem_openLocks, and_assoc]

/-- The locks are closed in the reverse of the order in which the hierarchy lists their directories. -/
theorem paths_closingOrder (hierarchy : Hierarchy) (directory : Path) :
    (hierarchy.closingOrder directory).map AreaLock.path =
      (hierarchy.lockedPaths.filter fun path => path.isUnder directory).reverse := by
  rw [closingOrder, openUnder, lockedPaths, List.filter_map, List.map_reverse]
  rfl

/-- Every lock is closed before the locks on the directories above its own. -/
theorem Sorted.deepest_first (inOrder : hierarchy.Sorted) (directory : Path) :
    (hierarchy.closingOrder directory).Pairwise fun earlier later =>
      later.path.isUnder earlier.path = false := by
  rw [closingOrder, List.pairwise_reverse]
  refine ((inOrder.filter AreaLock.isOpen).filter fun lock => lock.path.isUnder directory).imp ?_
  intro upper lower before
  by_contra under
  rw [Bool.not_eq_false] at under
  have after := Path.order_isLE_of_isUnder under
  rw [Std.OrientedCmp.gt_iff_lt.mpr before] at after
  exact absurd after (by decide)

theorem closeLock_apply (path : Path) (world : World σ) (hierarchy : Hierarchy) :
    closeLock path (world, hierarchy) = match world.files.canonical path with
      | .error error => .error error (world, hierarchy)
      | .ok real =>
          match hierarchy.find? real with
          | none => .error (.noLock real) (world, hierarchy)
          | some lock =>
              if lock.isOpen = false then
                .error (.alreadyClosed real)
                  (AreaLock.giveBack (hierarchy.closingOrder real) world, hierarchy.closedUnder real)
              else match AreaLock.releaseAll (hierarchy.closingOrder real) world with
                | .ok (some error) _ =>
                    .error error
                      (AreaLock.giveBack (hierarchy.closingOrder real) world, hierarchy.closedUnder real)
                | _ =>
                    .ok ()
                      (AreaLock.giveBack (hierarchy.closingOrder real) world,
                        hierarchy.closedUnder real) := by
  cases canonical : world.files.canonical path with
  | error error => simp [closeLock, HierarchyAction.ofLook, canonical]
  | ok real =>
      cases found : hierarchy.find? real with
      | none => simp [closeLock, HierarchyAction.ofLook, canonical, found]
      | some lock =>
          obtain ⟨failure, gave⟩ := AreaLock.releaseAll_apply (hierarchy.closingOrder real) world
          simp only [closingOrder, openUnder] at gave ⊢
          cases isOpen : lock.isOpen <;> cases failure <;>
            simp [closeLock, HierarchyAction.ofLook, HierarchyAction.ofAction,
              HierarchyAction.update, canonical, found, gave, isOpen, closedUnder]

end Hierarchy

end Checkout
