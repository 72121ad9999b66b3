import Checkout.Lock.File
import Checkout.WorkingCopy.Area
import Checkout.World

/-!
# Locks on directories

Whoever locks a directory claims it in the process, so nobody else in the process can lock it. To
lock it for writing also takes its lock file, which other processes see. What was acquired is given
back by `DirectoryLock.release`: first the lock file, then the claim.
-/

namespace Checkout

variable {σ : Type}

/-- The lock on a directory, in the hands of its holder. -/
structure DirectoryLock where
  /-- The directory that is claimed. -/
  directory : Path
  /-- The lock on its lock file, if it is locked for writing. -/
  file : Option FileLock
  deriving DecidableEq, Repr

namespace DirectoryLock

/-- Whether the directory is locked for writing. -/
def isWrite (lock : DirectoryLock) : Bool :=
  lock.file.isSome

/-- Takes the lock file of a directory that has just been claimed; the claim is given back if that
fails. -/
def acquireFile (directory : Path) : Action σ DirectoryLock := do
  match ← (Action.ofFiles (FileLock.tryAcquire (Area.lockFile directory))).outcome with
  | .ok (some file) => return { directory, file := some file }
  | .ok none =>
      modify fun world => world.unclaim directory
      throw (.alreadyLocked directory)
  | .error error =>
      modify fun world => world.unclaim directory
      throw error

/-- Locks a directory, given by its canonical path. -/
def acquire (directory : Path) (write : Bool) : Action σ DirectoryLock := do
  if (← get).isClaimed directory then throw (.alreadyLocked directory)
  modify fun world => world.claim directory
  if write then acquireFile directory else return { directory, file := none }

/-- Gives the lock back. The claim is gone afterwards even if the lock file cannot be removed. -/
def release (lock : DirectoryLock) : Action σ Unit := do
  let removed ← match lock.file with
    | some file => (Action.ofFiles file.remove).outcome
    | none => pure (.ok ())
  modify fun world => world.unclaim lock.directory
  Action.ofOutcome removed

/-- Gives the lock back when nobody is there to hear of an error. -/
def drop (lock : DirectoryLock) : Action σ Unit :=
  lock.release.ignoringErrors

end DirectoryLock

end Checkout
