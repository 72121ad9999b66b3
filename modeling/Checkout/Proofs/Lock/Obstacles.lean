import Checkout.Proofs.FileSystem.Probing
import Checkout.Proofs.Lock.Borrowing
import Checkout.Proofs.WorkingCopy.PlainAreas

/-!
# What keeps a directory from being locked

The caller may call an operation off before any directory, by an answer that depends only on how often the
caller has been asked. A directory is not to be had if it is claimed, or, for writing, if its lock file is held
or is a directory. While only lock files of other directories are borrowed and only other directories are
claimed, whether a directory can be locked is what it was before.
-/

namespace Checkout

variable {σ : Type}

open FileSystem (AgreeOutside Borrowed PlainAreas Within)

/-! ## Asking the caller -/

namespace Cancellation

variable (cancel : Option (Cancellation σ)) (caller : σ)

/-- Whether the caller calls the operation off, and the caller afterwards. Without a way to call it off, it
goes on. -/
def reply : Bool × σ :=
  match cancel with
  | none => (false, caller)
  | some ask => ask caller

/-- The caller after having been asked a number of times. -/
def callerAfter : Nat → σ
  | 0 => caller
  | asked + 1 => (reply cancel (callerAfter asked)).2

/-- The caller, having been asked a number of times, calls the operation off when asked again. -/
def callsOff (asked : Nat) : Bool :=
  (reply cancel (callerAfter cancel caller asked)).1

end Cancellation

open Cancellation (reply callerAfter callsOff)

namespace AreaLock

variable {cancel : Option (Cancellation σ)} {world asked : World σ} {error : Error}

theorem poll_eq (cancel : Option (Cancellation σ)) (world : World σ) :
    poll cancel world =
      if (reply cancel world.caller).1 then
        .error .cancelled { world with caller := (reply cancel world.caller).2 }
      else .ok () { world with caller := (reply cancel world.caller).2 } := by
  cases cancel with
  | none => rfl
  | some ask => exact poll_some ask world

theorem poll_eq_ok (polled : poll cancel world = .ok () asked) :
    (reply cancel world.caller).1 = false ∧
      asked = { world with caller := (reply cancel world.caller).2 } := by
  rw [poll_eq] at polled
  split at polled
  · simp at polled
  · rename_i goesOn
    rw [EStateM.Result.ok.injEq] at polled
    exact ⟨by simpa using goesOn, polled.2.symm⟩

theorem poll_eq_error (polled : poll cancel world = .error error asked) :
    (reply cancel world.caller).1 = true ∧ error = .cancelled ∧
      asked = { world with caller := (reply cancel world.caller).2 } := by
  rw [poll_eq] at polled
  split at polled
  · rename_i stops
    rw [EStateM.Result.error.injEq] at polled
    exact ⟨stops, polled.1.symm, polled.2.symm⟩
  · simp at polled

end AreaLock

/-! ## Obstacles -/

/-- The error if the lock file of a directory is held, or something else is in its place. A lock file that is
missing can be created. -/
def FileSystem.lockFileObstacle? (files : FileSystem) (directory : Path) : Option Error :=
  match files.entry true (Area.lockFile directory) with
  | .ok (_, .file identity) =>
      if files.isHeld identity then some (.alreadyLocked directory) else none
  | .ok _ => some (.io .isDirectory)
  | .error _ => none

/-- The error if a directory cannot be locked. -/
def World.obstacle? (world : World σ) (write : Bool) (directory : Path) : Option Error :=
  if world.isClaimed directory then some (.alreadyLocked directory)
  else if write then world.files.lockFileObstacle? directory
  else none

/-- The error if an attempt to lock a directory fails when the caller has been asked a number of times. -/
def World.stop? (world : World σ) (cancel : Option (Cancellation σ)) (write : Bool) (asked : Nat)
    (directory : Path) : Option Error :=
  if callsOff cancel world.caller asked then some .cancelled else world.obstacle? write directory

/-! ## The caller meanwhile -/

theorem DirectoryLock.caller_acquire (path : Path) (write : Bool) (world : World σ) :
    (stateAfter (acquire path write) world).caller = world.caller := by
  by_cases claimed : world.isClaimed path = true
  · simp [stateAfter, acquire_apply, claimed]
  · cases write with
    | false => simp [stateAfter, acquire_apply, claimed, World.claim]
    | true =>
        cases tried : FileLock.tryAcquire (Area.lockFile path) world.files with
        | error error files => simp [stateAfter, acquire_apply, claimed, tried]
        | ok file? files =>
            cases file? <;> simp [stateAfter, acquire_apply, claimed, tried, World.claim]

namespace AreaLock

theorem caller_acquire (path : Path) (write : Bool) (depth : Depth) (world : World σ) :
    (stateAfter (acquire path write depth) world).caller = world.caller := by
  have kept := DirectoryLock.caller_acquire path write world
  by_cases versioned : world.files.isVersioned path = true
  · cases ran : DirectoryLock.acquire path write world with
    | error error after =>
        rw [stateAfter_of_error ran] at kept
        simpa [stateAfter, acquire_apply, versioned, ran] using kept
    | ok lock after =>
        rw [stateAfter_of_ok ran] at kept
        simpa [stateAfter, acquire_apply, versioned, ran] using kept
  · simp [stateAfter, acquire_apply, versioned]

theorem caller_release (lock : AreaLock) (world : World σ) :
    (stateAfter lock.release world).caller = world.caller := by
  cases held_eq : lock.held with
  | none => simp [stateAfter, release, held_eq]
  | some held =>
      simp only [release, held_eq, DirectoryLock.stateAfter_release]
      rfl

theorem caller_giveBack (locks : List AreaLock) (world : World σ) :
    (giveBack locks world).caller = world.caller := by
  induction locks generalizing world with
  | nil => rfl
  | cons lock rest ih => exact (ih _).trans (caller_release lock world)

/-! ## Attempts -/

variable {before now : World σ} {root directory : Path} {top location : Location}
  {mine : List FileLock} {write : Bool}

/-- The attempt to lock a directory of a tree, before which other directories were locked. -/
structure Attempt (before now : World σ) (root : Path) (top : Location) (directory : Path)
    (location : Location) (mine : List FileLock) : Prop where
  wellFormed : before.files.WellFormed
  plain : before.files.PlainAreas top
  within : before.files.Within root top directory location
  borrowed : Borrowed before.files now.files mine ∅
  named : ∀ lock ∈ mine, ∃ directory, lock.path = Area.lockFile directory
  apart : ∀ lock ∈ mine,
    ¬before.files.IsPlace lock.path (location ++ [Area.directoryName, "lock"])
  claimed : now.isClaimed directory = before.isClaimed directory

variable (attempt : Attempt before now root top directory location mine)

include attempt

theorem Attempt.agree : AgreeOutside before.files now.files FileSystem.lockPlaces :=
  attempt.borrowed.agreeOutside_lockPlaces attempt.named

theorem Attempt.versioned : now.files.isVersioned directory = true := by
  rw [attempt.agree.isVersioned_eq attempt.wellFormed attempt.borrowed.wellFormed
    (attempt.within.recordOutside attempt.plain)]
  exact attempt.within.versioned

/-- The lock file of a directory can be locked exactly if nothing stood in its way before. -/
theorem Attempt.tryAcquire :
    match before.files.lockFileObstacle? directory with
    | none => ∃ file after, FileLock.tryAcquire (Area.lockFile directory) now.files =
        .ok (some file) after
    | some error =>
        FileLock.tryAcquire (Area.lockFile directory) now.files = .ok none now.files ∧
            error = .alreadyLocked directory ∨
          FileLock.tryAcquire (Area.lockFile directory) now.files = .error error now.files := by
  have place : before.files.IsPlace (Area.lockFile directory) _ :=
    (attempt.within.plainArea attempt.plain).isPlace_lockFile
  have placeNow := place.congr attempt.borrowed.sameTree
  have same := attempt.borrowed.node?_apart attempt.apart
  rw [FileSystem.lockFileObstacle?, (attempt.within.plainArea attempt.plain).entry_lockFile]
  cases there : before.files.node? (location ++ [Area.directoryName, "lock"]) with
  | none =>
      exact FileSystem.tryAcquire_of_vacant attempt.borrowed.wellFormed ⟨_, placeNow, same.trans there⟩
  | some node =>
      cases node with
      | link target =>
          exact absurd ⟨_, target, place, there⟩ (attempt.within.plainArea attempt.plain).not_namesLink_lockFile
      | directory =>
          exact Or.inr (FileSystem.tryAcquire_of_directory placeNow (same.trans there))
      | file identity =>
          have named : now.files.NamesFile (Area.lockFile directory) identity :=
            ⟨_, placeNow, same.trans there⟩
          -- what is held is the file, whatever path it was locked by, so it must have this name only
          obtain ⟨names, location_eq, -⟩ := attempt.within.below
          have unshared : ∀ other, before.files.node? other = some (.file identity) →
              other = location ++ [Area.directoryName, "lock"] := by
            rw [location_eq] at there ⊢
            exact fun other alsoFile => attempt.plain.unshared names other identity there alsoFile
          have held_iff := attempt.borrowed.held_apart attempt.apart attempt.wellFormed there unshared
          by_cases held : identity ∈ before.files.held
          · have isHeld : before.files.isHeld identity = true := by
              simpa [FileSystem.isHeld] using held
            simp only [isHeld, if_true]
            exact Or.inl ⟨FileSystem.tryAcquire_of_held named (held_iff.mpr held), trivial⟩
          · have free : before.files.isHeld identity = false := by
              simpa [FileSystem.isHeld] using held
            simp only [free, Bool.false_eq_true, if_false]
            exact ⟨_, _, FileSystem.tryAcquire_of_free named (mt held_iff.mp held)⟩

/-- Locking a directory fails exactly if there was an obstacle before. -/
theorem Attempt.acquire (depth : Depth) :
    match before.obstacle? write directory with
    | none => ∃ lock after, AreaLock.acquire directory write depth now = .ok lock after
    | some error => ∃ after, AreaLock.acquire directory write depth now = .error error after := by
  have tried := attempt.tryAcquire
  rw [AreaLock.acquire_apply, if_pos attempt.versioned, DirectoryLock.acquire_apply, attempt.claimed,
    World.obstacle?]
  by_cases claimed : before.isClaimed directory = true
  · rw [if_pos claimed, if_pos claimed]
    exact ⟨now, rfl⟩
  · rw [if_neg claimed, if_neg claimed]
    cases write with
    | false => exact ⟨_, _, rfl⟩
    | true =>
        rw [if_pos rfl, if_pos rfl]
        cases obstacle : before.files.lockFileObstacle? directory with
        | none =>
            rw [obstacle] at tried
            obtain ⟨file, after, taken⟩ := tried
            rw [taken]
            exact ⟨_, _, rfl⟩
        | some error =>
            rw [obstacle] at tried
            rcases tried with ⟨refused, rfl⟩ | refused
            · rw [refused]
              exact ⟨_, rfl⟩
            · rw [refused]
              exact ⟨_, rfl⟩

end AreaLock

end Checkout
