import Checkout.Proofs.FileSystem.Guarded

/-!
# Probing lock files

What looking at a file in use, locking it and removing it as stale come to, in terms of the live locks:
each of them finds a live lock on the file exactly when there is one.
-/

namespace Checkout

namespace FileSystem

variable {used : Set Path} {files after : FileSystem} {live : Multiset FileLock} {path : Path}
  {location : Location} {identity : Nat}

/-- A live lock is on the file that the path names. -/
def IsLocked (files : FileSystem) (live : Multiset FileLock) (path : Path) : Prop :=
  ∃ lock ∈ live, files.NamesFile path lock.identity

theorem isHeldAt_eq_true_iff (wellFormed : files.WellFormed) (noLink : ¬files.NamesLink path) :
    files.isHeldAt path = .ok true ↔ ∃ identity ∈ files.held, files.NamesFile path identity := by
  constructor
  · intro held
    rw [isHeldAt] at held
    split at held
    · rename_i location identity found
      refine ⟨identity, by simpa [isHeld] using held, ?_⟩
      exact (entry_file_iff wellFormed noLink).mp ⟨location, found⟩
    · simp at held
    · split at held <;> simp at held
  · rintro ⟨identity, held, named⟩
    rcases (entry_file_iff wellFormed noLink).mpr named with ⟨location, found⟩
    simpa [isHeldAt, found, isHeld] using held

theorem Vacant.entry_eq (vacant : files.Vacant path) : files.entry true path = .error .notFound := by
  rcases vacant with ⟨_, ⟨directory, name, placed, rfl⟩, nothing⟩
  rcases place_ok placed with ⟨-, -, slash, names⟩
  have resolved := (names name rfl).resolve_eq (by simpa using slash) (by simp [nothing])
  rw [nothing] at resolved
  simp [entry, bind, Except.bind, resolved]

/-- Looking at a path that is free, or names a file that nobody holds, finds no lock. -/
theorem isHeldAt_of_free (wellFormed : files.WellFormed) (noLink : ¬files.NamesLink path)
    (regular : files.Vacant path ∨ ∃ identity, files.NamesFile path identity)
    (free : ∀ identity, files.NamesFile path identity → identity ∉ files.held) :
    files.isHeldAt path = .ok false := by
  rcases regular with vacant | ⟨identity, named⟩
  · simp [isHeldAt, vacant.entry_eq]
  · rcases (entry_file_iff wellFormed noLink).mpr named with ⟨location, found⟩
    simpa [isHeldAt, found, isHeld] using free identity named

/-- Who holds the file at a path in use has a live lock on it. -/
theorem isLocked_iff (guarded : Guarded used files live) (owned : Owned used files live)
    (path_mem : path ∈ used) :
    files.IsLocked live path ↔ ∃ identity ∈ files.held, files.NamesFile path identity := by
  constructor
  · rintro ⟨lock, lock_mem, named⟩
    exact ⟨lock.identity, guarded.held lock lock_mem, named⟩
  · rintro ⟨identity, held, named⟩
    rcases owned path path_mem identity named held with ⟨lock, lock_mem, rfl⟩
    exact ⟨lock, lock_mem, named⟩

/-! ## Locking -/

theorem tryAcquire_eq_none_iff {result : Option FileLock} (wellFormed : files.WellFormed)
    (noLink : ¬files.NamesLink path) (ran : FileLock.tryAcquire path files = .ok result after) :
    result = none ↔ ∃ identity ∈ files.held, files.NamesFile path identity := by
  rcases tryAcquire_cases wellFormed noLink with
    ⟨⟨error, failed⟩, -⟩ | ⟨refused, location, identity, place, isFile, held⟩ |
      ⟨lock, last, location, taken, rfl, took⟩
  · simp [failed] at ran
  · rw [refused, EStateM.Result.ok.injEq] at ran
    simp only [ran.1, true_iff]
    exact ⟨identity, held, location, place, isFile⟩
  · rw [taken, EStateM.Result.ok.injEq] at ran
    simp only [← ran.1, reduceCtorEq, false_iff, not_exists, not_and]
    rintro identity held ⟨elsewhere, place, isFile⟩
    rw [place.unique took.place] at isFile
    rcases took.was with found | ⟨-, vacant⟩
    · rw [found, Option.some.injEq, Node.file.injEq] at isFile
      exact took.free (isFile ▸ held)
    · simp [vacant] at isFile

/-- A file that nobody holds is locked as it is. -/
theorem tryAcquire_of_free (named : files.NamesFile path identity)
    (free : identity ∉ files.held) :
    FileLock.tryAcquire path files = .ok (some ⟨identity, path⟩) (files.hold identity) := by
  rcases named with ⟨_, ⟨directory, name, placed, rfl⟩, isFile⟩
  have notLink : ∀ target, files.node? (directory ++ [name]) ≠ some (.link target) := by simp [isFile]
  have unheld : files.isHeld identity = false := by simpa [isHeld] using free
  rw [FileLock.tryAcquire_apply, openFile_eq placed notLink, isFile]
  simp [unheld]

theorem tryAcquire_of_held (named : files.NamesFile path identity) (held : identity ∈ files.held) :
    FileLock.tryAcquire path files = .ok none files := by
  rcases named with ⟨_, ⟨directory, name, placed, rfl⟩, isFile⟩
  have notLink : ∀ target, files.node? (directory ++ [name]) ≠ some (.link target) := by simp [isFile]
  have isHeld : files.isHeld identity = true := by simpa [isHeld] using held
  rw [FileLock.tryAcquire_apply, openFile_eq placed notLink, isFile]
  simp [isHeld]

/-- A directory is in the way of a lock file. -/
theorem tryAcquire_of_directory (place : files.IsPlace path location)
    (isDirectory : files.node? location = some .directory) :
    FileLock.tryAcquire path files = .error (.io .isDirectory) files := by
  rcases place with ⟨directory, name, placed, rfl⟩
  have notLink : ∀ target, files.node? (directory ++ [name]) ≠ some (.link target) := by
    simp [isDirectory]
  rw [FileLock.tryAcquire_apply, openFile_eq placed notLink, isDirectory]

/-- A file that is not there is created, and locked. -/
theorem tryAcquire_of_vacant (wellFormed : files.WellFormed) (vacant : files.Vacant path) :
    ∃ lock after, FileLock.tryAcquire path files = .ok (some lock) after := by
  rcases vacant with ⟨location, place, nothing⟩
  have noLink : ¬files.NamesLink path := by
    rintro ⟨another, target, anotherPlace, isLink⟩
    rw [anotherPlace.unique place, nothing] at isLink
    simp at isLink
  rcases tryAcquire_cases wellFormed noLink with
    ⟨-, atDirectory⟩ | ⟨-, another, identity, anotherPlace, isFile, -⟩ | ⟨lock, after, -, taken, -⟩
  · have occupied := atDirectory location place
    rw [nothing] at occupied
    simp at occupied
  · rw [anotherPlace.unique place, nothing] at isFile
    simp at isFile
  · exact ⟨lock, after, taken⟩

/-! ## Removing stale files -/

theorem gave_erase (wellFormed : files.WellFormed) (place : files.IsPlace path location)
    (isFile : files.node? location = some (.file identity)) (free : identity ∉ files.held) :
    Gave (files.hold identity) (files.erase location) ⟨identity, path⟩ location where
  place := place.congr (sameTree_hold files identity)
  wellFormed := wellFormed.erase (by simp [isFile])
  current := rfl
  nextFile := rfl
  held := by
    intro other
    simp only [hold, erase, List.mem_cons]
    constructor
    · intro held
      exact ⟨Or.inr held, fun same => free (same ▸ held)⟩
    · rintro ⟨rfl | held, apart⟩
      · exact absurd rfl apart
      · exact held
  was := isFile
  here := node?_erase_self place.nonroot
  elsewhere := fun _ apart => node?_erase_of_ne apart

/-- A file that nobody holds is removed as stale. -/
theorem removeStale_of_free (wellFormed : files.WellFormed) (noLink : ¬files.NamesLink path)
    (place : files.IsPlace path location) (isFile : files.node? location = some (.file identity))
    (free : identity ∉ files.held) :
    FileLock.removeStale path files = .ok true (files.erase location) := by
  rcases (entry_file_iff wellFormed noLink).mpr ⟨location, place, isFile⟩ with ⟨reached, found⟩
  have unheld : files.isHeld identity = false := by simpa [isHeld] using free
  rcases place.congr (sameTree_hold files identity) with ⟨directory, name, placed, rfl⟩
  have unlinked : unlink path (files.hold identity) =
      .ok () ((files.hold identity).erase (directory ++ [name])) := by
    simp [unlink, placed, Place.location, isFile]
  have released : ((files.hold identity).erase (directory ++ [name])).unhold identity =
      files.erase (directory ++ [name]) := by
    have others : (identity :: files.held).filter (· ≠ identity) = files.held := by
      rw [List.filter_cons_of_neg (by simp), List.filter_eq_self]
      intro other held
      simpa using fun same : other = identity => free (same ▸ held)
    simp only [unhold, erase, hold, others]
  simp [FileLock.removeStale, found, unheld, FileLock.remove, unlinked, released]

theorem removeStale_of_held (wellFormed : files.WellFormed) (noLink : ¬files.NamesLink path)
    (named : files.NamesFile path identity) (held : identity ∈ files.held) :
    FileLock.removeStale path files = .ok false files := by
  rcases (entry_file_iff wellFormed noLink).mpr named with ⟨location, found⟩
  have isHeld : files.isHeld identity = true := by simpa [isHeld] using held
  simp [FileLock.removeStale, found, isHeld]

/-- Anything else is left alone. -/
theorem removeStale_of_not_free (wellFormed : files.WellFormed) (noLink : ¬files.NamesLink path)
    (blocked : ∀ identity, files.NamesFile path identity → identity ∈ files.held) :
    FileLock.removeStale path files = .ok false files ∨
      ∃ error, FileLock.removeStale path files = .error error files := by
  cases found : files.entry true path with
  | error failure =>
      by_cases gone : failure = .notFound
      · exact Or.inl (by simp [FileLock.removeStale, found, gone])
      · exact Or.inr ⟨.io failure, by simp [FileLock.removeStale, found, gone]⟩
  | ok entry =>
      rcases entry with ⟨location, node⟩
      cases node with
      | directory => exact Or.inr ⟨.io .isDirectory, by simp [FileLock.removeStale, found]⟩
      | link target => exact Or.inr ⟨.io .isDirectory, by simp [FileLock.removeStale, found]⟩
      | file identity =>
          have named := (entry_file_iff wellFormed noLink).mp ⟨location, found⟩
          exact Or.inl (removeStale_of_held wellFormed noLink named (blocked identity named))

/-- What can be seen of a lock file and what is done to it depends on whether a live lock is on it. -/
structure Reports (files : FileSystem) (live : Multiset FileLock) (path : Path) : Prop where
  held : files.isHeldAt path = .ok true ↔ files.IsLocked live path
  unheld : files.Vacant path ∨ (∃ identity, files.NamesFile path identity) →
    ¬files.IsLocked live path → files.isHeldAt path = .ok false
  refused : ∀ result after, FileLock.tryAcquire path files = .ok result after →
    (result = none ↔ files.IsLocked live path)
  created : files.Vacant path → ∃ lock after, FileLock.tryAcquire path files = .ok (some lock) after
  /-- A stale file is in nobody's way. -/
  stale : ∀ identity, files.NamesFile path identity → ¬files.IsLocked live path →
    FileLock.tryAcquire path files = .ok (some ⟨identity, path⟩) (files.hold identity)
  removed : ∀ location identity, files.IsPlace path location →
    files.node? location = some (.file identity) → ¬files.IsLocked live path →
      FileLock.removeStale path files = .ok true (files.erase location)
  spared : files.Vacant path ∨ files.IsLocked live path →
    FileLock.removeStale path files = .ok false files
  /-- Where neither a file nor a free place is, removing a stale file may fail, but changes nothing. -/
  unchanged : (∀ identity, files.NamesFile path identity → files.IsLocked live path) →
    FileLock.removeStale path files = .ok false files ∨
      ∃ error, FileLock.removeStale path files = .error error files

theorem reports (guarded : Guarded used files live) (owned : Owned used files live)
    (path_mem : path ∈ used) : files.Reports live path := by
  have wellFormed := guarded.wellFormed
  have noLink := guarded.noLink path path_mem
  have locked_iff := isLocked_iff guarded owned path_mem
  have free : ¬files.IsLocked live path → ∀ identity, files.NamesFile path identity →
      identity ∉ files.held :=
    fun unlocked identity named held => unlocked (locked_iff.mpr ⟨identity, held, named⟩)
  refine ⟨?_, ?_, ?_, tryAcquire_of_vacant wellFormed, ?_, ?_, ?_, ?_⟩
  · rw [isHeldAt_eq_true_iff wellFormed noLink, locked_iff]
  · intro regular unlocked
    exact isHeldAt_of_free wellFormed noLink regular (free unlocked)
  · intro result after ran
    rw [tryAcquire_eq_none_iff wellFormed noLink ran, locked_iff]
  · intro identity named unlocked
    exact tryAcquire_of_free named (free unlocked identity named)
  · intro location identity place isFile unlocked
    exact removeStale_of_free wellFormed noLink place isFile
      (free unlocked identity ⟨location, place, isFile⟩)
  · rintro (vacant | locked)
    · simp [FileLock.removeStale, vacant.entry_eq]
    · rcases locked_iff.mp locked with ⟨identity, held, named⟩
      exact removeStale_of_held wellFormed noLink named held
  · intro locked
    apply removeStale_of_not_free wellFormed noLink
    intro identity named
    rcases locked_iff.mp (locked identity named) with ⟨other, held, alsoNamed⟩
    exact named.unique alsoNamed ▸ held

namespace Custody

variable {keeps : FileSystem → Multiset FileLock → Prop}

theorem tryAcquire (custody : Custody used keeps) (kept : keeps files live) (path_mem : path ∈ used) :
    (∃ error, FileLock.tryAcquire path files = .error error files) ∨
      FileLock.tryAcquire path files = .ok none files ∨
      ∃ lock after, FileLock.tryAcquire path files = .ok (some lock) after ∧ lock.path = path ∧
        keeps after (lock ::ₘ live) ∧ Attended after (lock ::ₘ live) path := by
  have guarded := custody.guarded kept
  rcases tryAcquire_cases guarded.wellFormed (guarded.noLink path path_mem) with
    ⟨failed, -⟩ | ⟨refused, -⟩ | ⟨lock, after, location, taken, rfl, took⟩
  · exact Or.inl failed
  · exact Or.inr (Or.inl refused)
  · exact Or.inr (Or.inr ⟨lock, after, taken, rfl, custody.took kept path_mem took, .of_took took⟩)

theorem tryAcquire_unchanged (custody : Custody used keeps) (kept : keeps files live)
    (path_mem : path ∈ used)
    (notLocked : ∀ lock after, FileLock.tryAcquire path files ≠ .ok (some lock) after) :
    stateAfter (FileLock.tryAcquire path) files = files := by
  rcases custody.tryAcquire kept path_mem with ⟨error, failed⟩ | refused | ⟨lock, after, taken, -⟩
  · exact stateAfter_of_error failed
  · exact stateAfter_of_ok refused
  · exact absurd taken (notLocked lock after)

theorem removeStale (custody : Custody used keeps) (kept : keeps files live) (path_mem : path ∈ used) :
    keeps (stateAfter (FileLock.removeStale path) files) live := by
  have guarded := custody.guarded kept
  have noLink := guarded.noLink path path_mem
  by_cases blocked : ∀ identity, files.NamesFile path identity → identity ∈ files.held
  · rcases removeStale_of_not_free guarded.wellFormed noLink blocked with refused | ⟨error, failed⟩
    · rw [stateAfter_of_ok refused]
      exact kept
    · rw [stateAfter_of_error failed]
      exact kept
  · push Not at blocked
    rcases blocked with ⟨identity, ⟨location, place, isFile⟩, free⟩
    rw [stateAfter_of_ok (removeStale_of_free guarded.wellFormed noLink place isFile free)]
    have took := took_found guarded.wellFormed place isFile free
    exact custody.gave (custody.took kept path_mem took)
      (gave_erase guarded.wellFormed place isFile free)

end Custody

end FileSystem

end Checkout
