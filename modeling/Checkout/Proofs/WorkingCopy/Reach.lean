import Checkout.Lock.Depth
import Checkout.Proofs.FileSystem.GivingWay
import Checkout.Proofs.WorkingCopy.Children
import Checkout.Proofs.WorkingCopy.Versioned

/-!
# The directories in reach

Locking a tree to a depth comes to the directory at its top and from each directory to its versioned
children. As long as only lock files come and go, with links to them, and no record of a directory is one of
them, the directories in reach stay the same.
-/

namespace Checkout

/-- Locking `directory` to a depth comes to another directory. -/
inductive Reach (files : FileSystem) : Depth → Path → Path → Prop where
  | here (depth : Depth) (directory : Path) : Reach files depth directory directory
  | inside {depth childDepth : Depth} {directory child reached : Path} {children : List Path}
      (deeper : depth.child? = some childDepth)
      (listed : files.versionedChildren directory = .ok children) (child_mem : child ∈ children)
      (further : Reach files childDepth child reached) : Reach files depth directory reached

namespace FileSystem

variable {files other : FileSystem} {places : Set Location} {paths : Set Path} {path child : Path}
  {children : List Path}

/-- The record of a directory, if there is one or could be one, is at none of the places. -/
def RecordOutside (files : FileSystem) (places : Set Location) (path : Path) : Prop :=
  ∀ spot, files.resolve true (Area.entriesFile path) = .ok spot → spot.location ∉ places

theorem AgreeOutside.isVersioned_eq (agree : AgreeOutside files other places)
    (wellFormed : files.WellFormed) (otherWellFormed : other.WellFormed)
    (record : files.RecordOutside places path) : other.isVersioned path = files.isVersioned path := by
  rw [Bool.eq_iff_iff, isVersioned, isVersioned, isFile_iff, isFile_iff]
  constructor
  · rintro ⟨location, identity, found⟩
    obtain ⟨spot, resolved, location_eq⟩ :=
      resolve_location agree.symm.sameTree (entry_eq_ok.mp found)
    have outside := record spot resolved
    rw [location_eq] at outside
    exact ⟨location, identity, agree.symm.entry_file otherWellFormed wellFormed found outside⟩
  · rintro ⟨location, identity, found⟩
    have outside := record _ (entry_eq_ok.mp found)
    exact ⟨location, identity, agree.entry_file wellFormed otherWellFormed found outside⟩

/-- None of some paths touches the record of a directory, or the place for it. -/
def RecordUntouched (files : FileSystem) (paths : Set Path) (path : Path) : Prop :=
  ∀ spot, files.LeadsTo (Area.entriesFile path) spot →
    ∀ toucher ∈ paths, ¬files.Touches toucher spot.location

theorem AgreeUpTo.isVersioned_eq (agree : AgreeUpTo files other paths) (wellFormed : files.WellFormed)
    (record : files.RecordUntouched paths path) : other.isVersioned path = files.isVersioned path := by
  rw [Bool.eq_iff_iff, isVersioned, isVersioned, isFile_iff, isFile_iff]
  constructor
  · rintro ⟨location, identity, found⟩
    rcases agree.resolve_before (entry_eq_ok.mp found) with was | ⟨spot, leads, toucher, toucher_mem, touched, -⟩
    · exact ⟨location, identity, entry_eq_ok.mpr was⟩
    · exact absurd touched (record spot leads toucher toucher_mem)
  · rintro ⟨location, identity, found⟩
    have resolved := entry_eq_ok.mp found
    obtain ⟨spot, still, rfl | ⟨toucher, toucher_mem, touched, -⟩⟩ := agree.resolve_now wellFormed resolved
    · exact ⟨location, identity, entry_eq_ok.mpr still⟩
    · exact absurd touched (record _ (leadsTo_of_resolve resolved) toucher toucher_mem)

/-- A directory that has come to be listed as a child was listed before. -/
theorem AgreeUpTo.mem_versionedChildren (agree : AgreeUpTo files other paths) (wellFormed : files.WellFormed)
    (otherWellFormed : other.WellFormed) {location : Location}
    (found : files.entry true path = .ok (location, .directory))
    (records : ∀ name, files.node? (location ++ [name]) = some .directory →
      files.RecordUntouched paths (path.join name))
    (listed : other.versionedChildren path = .ok children) (child_mem : child ∈ children) :
    ∃ before, files.versionedChildren path = .ok before ∧ child ∈ before := by
  obtain ⟨reached, name, still, entry_mem, ordinary, rfl, versioned⟩ :=
    (FileSystem.mem_versionedChildren listed).mp child_mem
  rw [agree.entry_directory wellFormed found, Except.ok.injEq, Prod.mk.injEq] at still
  obtain ⟨rfl, -⟩ := still
  have inside := agree.directory_iff.mpr (otherWellFormed.node?_of_mem entry_mem)
  rw [agree.isVersioned_eq wellFormed (records name inside)] at versioned
  obtain ⟨before, before_listed⟩ := versionedChildren_of_entry found
  refine ⟨before, before_listed, (FileSystem.mem_versionedChildren before_listed).mpr ?_⟩
  exact ⟨location, name, found, mem_of_node? (by simp) inside, ordinary, rfl, versioned⟩

/-- Versioned children are versioned. -/
theorem isVersioned_of_mem_versionedChildren (listed : files.versionedChildren path = .ok children)
    (child_mem : child ∈ children) : files.isVersioned child = true := by
  obtain ⟨-, -, -, -, -, -, versioned⟩ := (mem_versionedChildren listed).mp child_mem
  exact versioned

end FileSystem

namespace Reach

variable {files : FileSystem} {depth : Depth} {directory reached : Path}

theorem isAbsolute (reach : Reach files depth directory reached) (wellFormed : files.WellFormed)
    (absolute : directory.isAbsolute = true) : reached.isAbsolute = true := by
  induction reach with
  | here => exact absolute
  | inside deeper listed child_mem further ih =>
      obtain ⟨name, proper, rfl⟩ := wellFormed.child_eq_join listed child_mem
      exact ih (Path.isAbsolute_join proper absolute)

theorem isVersioned (reach : Reach files depth directory reached)
    (versioned : files.isVersioned directory = true) : files.isVersioned reached = true := by
  induction reach with
  | here => exact versioned
  | inside deeper listed child_mem further ih =>
      exact ih (FileSystem.isVersioned_of_mem_versionedChildren listed child_mem)

end Reach

end Checkout
