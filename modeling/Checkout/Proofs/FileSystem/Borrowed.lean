import Checkout.Proofs.FileSystem.LockFile
import Mathlib.Data.Set.Basic

/-!
# Borrowed files

Whoever locks files and then gives them back leaves the file system as it was, except for stale lock
files: a file that was there before, and that nobody held, is gone when its lock has been given back.
-/

namespace Checkout

namespace FileSystem

variable {files other before now : FileSystem} {path : Path} {location : Location}

/-- The path names an entry at the location, and no slash follows the name. -/
def IsPlace (files : FileSystem) (path : Path) (location : Location) : Prop :=
  ∃ directory name, files.place path = .ok ⟨directory, some name, false⟩ ∧
    location = directory ++ [name]

theorem IsPlace.unique {another : Location} (here : files.IsPlace path location)
    (there : files.IsPlace path another) : location = another := by
  obtain ⟨directory, name, placed, rfl⟩ := here
  obtain ⟨directory', name', placed', rfl⟩ := there
  rw [placed, Except.ok.injEq, Place.mk.injEq, Option.some.injEq] at placed'
  rw [placed'.1, placed'.2.1]

theorem IsPlace.congr (same : SameTree files other) (here : files.IsPlace path location) :
    other.IsPlace path location := by
  obtain ⟨directory, name, placed, rfl⟩ := here
  exact ⟨directory, name, place_congr same placed, rfl⟩

theorem IsPlace.nonroot (here : files.IsPlace path location) : location ≠ [] := by
  obtain ⟨directory, name, -, rfl⟩ := here
  simp

/-- The path names a link. -/
def NamesLink (files : FileSystem) (path : Path) : Prop :=
  ∃ location target, files.IsPlace path location ∧ files.node? location = some (.link target)

/-! ## One lock taken or given back -/

/-- A lock was taken on a file, which was found or created at the place of the lock's path. -/
structure Took (files after : FileSystem) (lock : FileLock) (location : Location) : Prop where
  place : files.IsPlace lock.path location
  wellFormed : after.WellFormed
  current : files.current = after.current
  nextFile : files.nextFile ≤ after.nextFile
  free : lock.identity ∉ files.held
  held : after.held = lock.identity :: files.held
  here : after.node? location = some (.file lock.identity)
  was : files.node? location = some (.file lock.identity) ∨
    files.nextFile ≤ lock.identity ∧ files.node? location = none
  elsewhere : ∀ other, other ≠ location → after.node? other = files.node? other

/-- A lock was given back, and the name of its file is gone. -/
structure Gave (files after : FileSystem) (lock : FileLock) (location : Location) : Prop where
  place : files.IsPlace lock.path location
  wellFormed : after.WellFormed
  current : files.current = after.current
  nextFile : files.nextFile = after.nextFile
  held : ∀ identity, identity ∈ after.held ↔ identity ∈ files.held ∧ identity ≠ lock.identity
  was : files.node? location = some (.file lock.identity)
  here : after.node? location = none
  elsewhere : ∀ other, other ≠ location → after.node? other = files.node? other

theorem Took.sameTree {lock : FileLock} (took : Took files other lock location) :
    SameTree files other := by
  apply sameTree_of_leaves took.current
  intro place
  rcases eq_or_ne place location with rfl | apart
  · right
    refine ⟨?_, by simp [skeleton?, took.here]⟩
    rcases took.was with isFile | ⟨-, vacant⟩
    · simp [skeleton?, isFile]
    · simp [skeleton?, vacant]
  · exact Or.inl (took.elsewhere place apart).symm

theorem Gave.sameTree {lock : FileLock} (gave : Gave files other lock location) :
    SameTree files other := by
  apply sameTree_of_leaves gave.current
  intro place
  rcases eq_or_ne place location with rfl | apart
  · exact Or.inr ⟨by simp [skeleton?, gave.was], by simp [skeleton?, gave.here]⟩
  · exact Or.inl (gave.elsewhere place apart).symm

/-- Locking a file that is there and that nobody holds. -/
theorem took_found {identity : Nat} (wellFormed : files.WellFormed)
    (place : files.IsPlace path location) (isFile : files.node? location = some (.file identity))
    (free : identity ∉ files.held) :
    Took files (files.hold identity) ⟨identity, path⟩ location where
  place := place
  wellFormed := wellFormed.hold (wellFormed.known_of_node? isFile)
  current := rfl
  nextFile := Nat.le_refl _
  free := free
  held := rfl
  here := isFile
  was := Or.inl isFile
  elsewhere := fun _ _ => rfl

/-- Locking a file that has to be created. -/
theorem took_created {directory : Location} {name : OsText} (wellFormed : files.WellFormed)
    (placed : files.place path = .ok ⟨directory, some name, false⟩)
    (vacant : files.node? (directory ++ [name]) = none) :
    Took files ((files.putFile (directory ++ [name]) ByteArray.empty).hold files.nextFile)
      ⟨files.nextFile, path⟩ (directory ++ [name]) := by
  have names := (place_ok placed).2.2.2 name rfl
  have created := wellFormed.putFile ByteArray.empty (names.inside wellFormed) vacant names.proper
  refine ⟨⟨directory, name, placed, rfl⟩, created.hold (Nat.lt_succ_self _), rfl, Nat.le_succ _, ?_, rfl,
    ?_, Or.inr ⟨Nat.le_refl _, vacant⟩, ?_⟩
  · intro held
    exact Nat.lt_irrefl _ (wellFormed.heldKnown _ held)
  · rw [node?_hold, node?_putFile_self (by simp)]
  · intro other apart
    rw [node?_hold, node?_putFile_of_ne apart]

/-- Locking a file fails and changes nothing, or there is no lock because the file is held, or the lock is
taken. It fails if there is no place for the file, or a directory at its place. -/
theorem tryAcquire_cases (wellFormed : files.WellFormed) (noLink : ¬files.NamesLink path) :
    ((∃ error, FileLock.tryAcquire path files = .error error files) ∧
        ∀ location, files.IsPlace path location → files.node? location = some .directory) ∨
      (FileLock.tryAcquire path files = .ok none files ∧ ∃ location identity,
        files.IsPlace path location ∧ files.node? location = some (.file identity) ∧
          identity ∈ files.held) ∨
      ∃ lock after location, FileLock.tryAcquire path files = .ok (some lock) after ∧
        lock.path = path ∧ Took files after lock location := by
  simp only [FileLock.tryAcquire_apply]
  by_cases noPlace : ∃ location, files.IsPlace path location
  · rcases noPlace with ⟨location, directory, name, placed, rfl⟩
    have here : files.IsPlace path (directory ++ [name]) := ⟨directory, name, placed, rfl⟩
    have notLink : ∀ target, files.node? (directory ++ [name]) ≠ some (.link target) := by
      intro target isLink
      exact noLink ⟨_, target, here, isLink⟩
    rw [openFile_eq placed notLink]
    cases entry : files.node? (directory ++ [name]) with
    | none =>
        have took := took_created wellFormed placed entry
        have unheld : (files.putFile (directory ++ [name]) ByteArray.empty).isHeld
            files.nextFile = false := by
          simpa [isHeld, putFile, setBytes, put] using took.free
        exact Or.inr (Or.inr ⟨_, _, _, by simp [unheld], rfl, took⟩)
    | some node =>
        cases node with
        | directory =>
            refine Or.inl ⟨⟨.io .isDirectory, rfl⟩, ?_⟩
            intro location place
            rw [place.unique here]
            exact entry
        | link target => exact absurd entry (notLink target)
        | file identity =>
            cases held : files.isHeld identity with
            | true =>
                have isHeld : identity ∈ files.held := by simpa [isHeld] using held
                exact Or.inr (Or.inl ⟨by simp [held], _, identity, here, entry, isHeld⟩)
            | false =>
                have free : identity ∉ files.held := by simpa [isHeld] using held
                exact Or.inr (Or.inr ⟨_, _, _, by simp [held], rfl,
                  took_found wellFormed here entry free⟩)
  · refine Or.inl ⟨?_, fun location place => absurd ⟨location, place⟩ noPlace⟩
    cases placed : files.place path with
    | error failure => exact ⟨.io failure, by simp [openFile, placed]⟩
    | ok place =>
        have unfit : place.name? = none ∨ place.trailingSlash = true := by
          by_contra fit
          rw [not_or, Bool.not_eq_true] at fit
          rcases Option.ne_none_iff_exists'.mp fit.1 with ⟨name, name_eq⟩
          exact noPlace ⟨_, place.directory, name, by rw [placed, ← name_eq, ← fit.2], rfl⟩
        exact ⟨.io .isDirectory, by simp only [openFile, placed, if_pos unfit]⟩

/-- Giving a lock back removes its file, which stands at its place. -/
theorem gave_remove {lock : FileLock} (wellFormed : files.WellFormed)
    (place : files.IsPlace lock.path location)
    (isFile : files.node? location = some (.file lock.identity)) :
    Gave files (stateAfter lock.remove files) lock location := by
  rcases place with ⟨directory, name, placed, rfl⟩
  have here : files.IsPlace lock.path (directory ++ [name]) := ⟨directory, name, placed, rfl⟩
  have unlinked : stateAfter (unlink lock.path) files = files.erase (directory ++ [name]) := by
    simp [stateAfter, unlink, placed, Place.location, isFile]
  have after_eq : stateAfter lock.remove files =
      (files.erase (directory ++ [name])).unhold lock.identity := by
    rw [FileLock.stateAfter_remove, unlinked]
  have leaf : files.node? (directory ++ [name]) ≠ some .directory := by
    rw [isFile]
    simp
  rw [after_eq]
  refine ⟨here, (wellFormed.erase leaf).unhold _, rfl, rfl, ?_, isFile, ?_, ?_⟩
  · intro identity
    simp [unhold, erase]
  · rw [node?_unhold, node?_erase_self here.nonroot]
  · intro other apart
    rw [node?_unhold, node?_erase_of_ne apart]

/-! ## Holding files -/

/-- A file that nobody holds. -/
def IsStale (files : FileSystem) (location : Location) : Prop :=
  ∃ identity, files.node? location = some (.file identity) ∧ identity ∉ files.held

/--
The files while the locks `mine` are held, as compared with the files before any of them was taken.
Nothing else has changed but that stale files at the places of the paths `gone` may be missing.
-/
structure Borrowed (before now : FileSystem) (mine : List FileLock) (gone : Set Path) : Prop where
  wellFormed : now.WellFormed
  current : before.current = now.current
  nextFile : before.nextFile ≤ now.nextFile
  distinct : (mine.map FileLock.identity).Nodup
  taken : ∀ lock ∈ mine, lock.identity ∉ before.held ∧ ∃ location, before.IsPlace lock.path location ∧
    now.node? location = some (.file lock.identity) ∧
    (before.node? location = some (.file lock.identity) ∨
      before.nextFile ≤ lock.identity ∧ (before.node? location = none ∨ before.IsStale location))
  elsewhere : ∀ location, now.node? location = before.node? location ∨
    (∃ lock ∈ mine, before.IsPlace lock.path location) ∨
    now.node? location = none ∧ before.IsStale location ∧ ∃ path ∈ gone, before.IsPlace path location
  held : ∀ identity, identity ∈ now.held ↔
    identity ∈ mine.map FileLock.identity ∨ identity ∈ before.held

namespace Borrowed

variable {mine rest : List FileLock} {gone : Set Path} {lock : FileLock}

theorem start (wellFormed : before.WellFormed) (gone : Set Path) :
    Borrowed before before [] gone where
  wellFormed := wellFormed
  current := rfl
  nextFile := Nat.le_refl _
  distinct := List.nodup_nil
  taken := by simp
  elsewhere := fun _ => Or.inl rfl
  held := by simp

theorem perm {others : List FileLock} (borrowed : Borrowed before now mine gone)
    (reordered : mine.Perm others) : Borrowed before now others gone where
  wellFormed := borrowed.wellFormed
  current := borrowed.current
  nextFile := borrowed.nextFile
  distinct := (reordered.map _).nodup_iff.mp borrowed.distinct
  taken := fun lock lock_mem => borrowed.taken lock (reordered.mem_iff.mpr lock_mem)
  elsewhere := by
    intro location
    simpa only [reordered.mem_iff] using borrowed.elsewhere location
  held := by
    intro identity
    rw [borrowed.held, (reordered.map _).mem_iff]

theorem mono {more : Set Path} (borrowed : Borrowed before now mine gone) (subset : gone ⊆ more) :
    Borrowed before now mine more :=
  { borrowed with
    elsewhere := fun location => (borrowed.elsewhere location).imp_right fun change =>
      change.imp_right fun ⟨missing, stale, path, path_mem, place⟩ =>
        ⟨missing, stale, path, subset path_mem, place⟩ }

/-- What is at the place of a lock that is held, now and before. -/
theorem node?_taken (borrowed : Borrowed before now mine gone) (lock_mem : lock ∈ mine)
    (place : before.IsPlace lock.path location) :
    now.node? location = some (.file lock.identity) ∧
      (before.node? location = some (.file lock.identity) ∨
        before.nextFile ≤ lock.identity ∧ (before.node? location = none ∨ before.IsStale location)) := by
  obtain ⟨-, other, otherPlace, here, there⟩ := borrowed.taken lock lock_mem
  rw [place.unique otherPlace]
  exact ⟨here, there⟩

theorem vacant_or_stale (borrowed : Borrowed before now mine gone) (lock_mem : lock ∈ mine)
    (place : before.IsPlace lock.path location) :
    before.node? location = none ∨ before.IsStale location := by
  rcases (borrowed.node?_taken lock_mem place).2 with older | ⟨-, other⟩
  · exact Or.inr ⟨lock.identity, older, (borrowed.taken lock lock_mem).1⟩
  · exact other

/-- Only files come and go. -/
theorem sameTree (borrowed : Borrowed before now mine gone) : SameTree before now := by
  have bare {location : Location} (vacant : before.node? location = none ∨ before.IsStale location) :
      before.skeleton? location = none := by
    rcases vacant with none | ⟨identity, isFile, -⟩
    · simp [skeleton?, none]
    · simp [skeleton?, isFile]
  refine sameTree_of_leaves borrowed.current ?_
  intro location
  rcases borrowed.elsewhere location with same | ⟨lock, lock_mem, place⟩ | ⟨missing, stale, -⟩
  · exact Or.inl same.symm
  · have here := (borrowed.node?_taken lock_mem place).1
    exact Or.inr ⟨bare (borrowed.vacant_or_stale lock_mem place), by simp [skeleton?, here]⟩
  · exact Or.inr ⟨bare (Or.inr stale), by simp [skeleton?, missing]⟩

/-- What was there before a file that nobody has locked, or before nothing. -/
theorem before_eq (borrowed : Borrowed before now mine gone)
    (unlocked : ∀ lock ∈ mine, now.node? location ≠ some (.file lock.identity)) :
    now.node? location = before.node? location ∨
      now.node? location = none ∧ before.IsStale location := by
  rcases borrowed.elsewhere location with same | ⟨lock, lock_mem, place⟩ | ⟨missing, stale, -⟩
  · exact Or.inl same
  · exact absurd (borrowed.node?_taken lock_mem place).1 (unlocked lock lock_mem)
  · exact Or.inr ⟨missing, stale⟩

/-- One more lock was taken. -/
theorem took {after : FileSystem} (borrowed : Borrowed before now mine gone)
    (took : Took now after lock location) : Borrowed before after (lock :: mine) gone := by
  have place : before.IsPlace lock.path location := took.place.congr borrowed.sameTree.symm
  have untaken : lock.identity ∉ mine.map FileLock.identity := by
    intro listed
    exact took.free ((borrowed.held _).mpr (Or.inl listed))
  have foreign : lock.identity ∉ before.held := by
    intro listed
    exact took.free ((borrowed.held _).mpr (Or.inr listed))
  have unlocked : ∀ other ∈ mine, now.node? location ≠ some (.file other.identity) := by
    intro other other_mem isFile
    rcases took.was with older | ⟨-, vacant⟩
    · rw [older, Option.some.injEq, Node.file.injEq] at isFile
      exact untaken (isFile ▸ List.mem_map_of_mem other_mem)
    · simp [vacant] at isFile
  have there : before.node? location = some (.file lock.identity) ∨
      before.nextFile ≤ lock.identity ∧
        (before.node? location = none ∨ before.IsStale location) := by
    rcases took.was with older | ⟨fresh, vacant⟩
    · rcases borrowed.before_eq unlocked with same | ⟨missing, -⟩
      · exact Or.inl (same ▸ older)
      · simp [missing] at older
    · right
      refine ⟨borrowed.nextFile.trans fresh, ?_⟩
      rcases borrowed.before_eq unlocked with same | ⟨-, stale⟩
      · exact Or.inl (same ▸ vacant)
      · exact Or.inr stale
  refine ⟨took.wellFormed, borrowed.current.trans took.current,
    borrowed.nextFile.trans took.nextFile, ?_, ?_, ?_, ?_⟩
  · rw [List.map_cons, List.nodup_cons]
    exact ⟨untaken, borrowed.distinct⟩
  · intro other other_mem
    rcases List.mem_cons.mp other_mem with rfl | older
    · exact ⟨foreign, location, place, took.here, there⟩
    · obtain ⟨unheld, elsewhere, otherPlace, isFile, otherWas⟩ := borrowed.taken other older
      refine ⟨unheld, elsewhere, otherPlace, ?_, otherWas⟩
      rw [took.elsewhere, isFile]
      rintro rfl
      exact unlocked other older isFile
  · intro other
    rcases eq_or_ne other location with rfl | apart
    · exact Or.inr (Or.inl ⟨_, List.mem_cons_self, place⟩)
    · rw [took.elsewhere other apart]
      rcases borrowed.elsewhere other with same | ⟨another, another_mem, anotherPlace⟩ | lost
      · exact Or.inl same
      · exact Or.inr (Or.inl ⟨another, List.mem_cons_of_mem _ another_mem, anotherPlace⟩)
      · exact Or.inr (Or.inr lost)
  · intro other
    rw [took.held, List.mem_cons, List.map_cons, List.mem_cons, borrowed.held, or_assoc]

/-- Locking a file fails and changes nothing, or the file is held from now on. It fails if there is no
place for it, or a directory at its place, or if the file is held already. -/
theorem tryAcquire (borrowed : Borrowed before now mine gone) (noLink : ¬before.NamesLink path) :
    ((∃ error, FileLock.tryAcquire path now = .error error now) ∧
        ∀ location, before.IsPlace path location → before.node? location = some .directory) ∨
      (FileLock.tryAcquire path now = .ok none now ∧ ∃ location identity,
        before.IsPlace path location ∧ now.node? location = some (.file identity) ∧
          identity ∈ now.held) ∨
      ∃ lock after, FileLock.tryAcquire path now = .ok (some lock) after ∧
        lock.path = path ∧ Borrowed before after (lock :: mine) gone := by
  have same := borrowed.sameTree
  have noLinkNow : ¬now.NamesLink path := by
    rintro ⟨location, target, place, isLink⟩
    exact noLink ⟨location, target, place.congr same.symm, same.link_iff.mpr isLink⟩
  rcases tryAcquire_cases borrowed.wellFormed noLinkNow with
    ⟨refused, atDirectory⟩ | ⟨refused, location, identity, place, isFile, held⟩ |
      ⟨lock, after, location, taken, path_eq, took⟩
  · refine Or.inl ⟨refused, ?_⟩
    intro location place
    exact same.directory_iff.mpr (atDirectory location (place.congr same))
  · exact Or.inr (Or.inl ⟨refused, location, identity, place.congr same.symm, isFile, held⟩)
  · exact Or.inr (Or.inr ⟨lock, after, taken, path_eq, borrowed.took took⟩)

/-- Giving a lock back removes its file. -/
theorem remove (borrowed : Borrowed before now (lock :: rest) gone) (gone_mem : lock.path ∈ gone) :
    Borrowed before (stateAfter lock.remove now) rest gone := by
  obtain ⟨unheld, location, place, here, -⟩ := borrowed.taken lock List.mem_cons_self
  have there := borrowed.vacant_or_stale List.mem_cons_self place
  have distinct := borrowed.distinct
  rw [List.map_cons, List.nodup_cons] at distinct
  have gave := gave_remove borrowed.wellFormed (place.congr borrowed.sameTree) here
  refine ⟨gave.wellFormed, borrowed.current.trans gave.current,
    borrowed.nextFile.trans_eq gave.nextFile, distinct.2, ?_, ?_, ?_⟩
  · intro other other_mem
    obtain ⟨otherUnheld, elsewhere, otherPlace, isFile, was⟩ :=
      borrowed.taken other (List.mem_cons_of_mem _ other_mem)
    refine ⟨otherUnheld, elsewhere, otherPlace, ?_, was⟩
    rw [gave.elsewhere, isFile]
    rintro rfl
    rw [here, Option.some.injEq, Node.file.injEq] at isFile
    exact distinct.1 (isFile ▸ List.mem_map_of_mem other_mem)
  · intro other
    rcases eq_or_ne other location with rfl | apart
    · rw [gave.here]
      rcases there with vacant | stale
      · exact Or.inl vacant.symm
      · exact Or.inr (Or.inr ⟨rfl, stale, lock.path, gone_mem, place⟩)
    · rw [gave.elsewhere other apart]
      rcases borrowed.elsewhere other with same | ⟨another, another_mem, anotherPlace⟩ | lost
      · exact Or.inl same
      · rcases List.mem_cons.mp another_mem with rfl | later
        · exact absurd (anotherPlace.unique place) apart
        · exact Or.inr (Or.inl ⟨another, later, anotherPlace⟩)
      · exact Or.inr (Or.inr lost)
  · intro identity
    have was := borrowed.held identity
    rw [List.map_cons, List.mem_cons] at was
    rw [gave.held, was]
    constructor
    · rintro ⟨(rfl | mine) | older, apart⟩
      · exact absurd rfl apart
      · exact Or.inl mine
      · exact Or.inr older
    · rintro (mine | older)
      · exact ⟨Or.inl (Or.inr mine), fun same => distinct.1 (same ▸ mine)⟩
      · exact ⟨Or.inr older, fun same => unheld (same ▸ older)⟩

end Borrowed

end FileSystem

end Checkout
