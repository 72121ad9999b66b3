import Checkout.Hooks
import Checkout.Lock.Depth
import Checkout.Lock.Directory

/-!
# Locking a tree

To lock a directory to a depth locks it and then, as far as the depth reaches, each of its versioned
child directories in order. It is all or nothing: when a directory cannot be locked, or the caller
calls the operation off, the locks taken so far are given back in reverse order.
-/

namespace Checkout

variable {σ : Type} {α : Type}

/-- The lock of a hierarchy on one directory; it stays on record when it has been closed. -/
structure AreaLock where
  /-- The directory. -/
  path : Path
  /-- Whether it is locked for writing. -/
  write : Bool
  /-- The depth it was opened at. -/
  depth : Depth
  /-- The lock on the directory, as long as it is open. -/
  held : Option DirectoryLock
  deriving DecidableEq, Repr

namespace AreaLock

/-- Whether the lock is open. -/
def isOpen (lock : AreaLock) : Bool :=
  lock.held.isSome

/-- The lock after it was closed. -/
def closed (lock : AreaLock) : AreaLock :=
  { lock with held := none }

/-- Locks one versioned directory. -/
def acquire (path : Path) (write : Bool) (depth : Depth) : Action σ AreaLock := do
  if !(← get).files.isVersioned path then throw (.notWorkingCopy path)
  let held ← DirectoryLock.acquire path write
  return { path, write, depth, held := some held }

/-- Gives the lock on the directory back. -/
def release (lock : AreaLock) : Action σ Unit :=
  match lock.held with
  | some held => held.release
  | none => throw (.alreadyClosed lock.path)

/-- Gives locks back one after another, all of them, and returns the first error. -/
def releaseAll : List AreaLock → Action σ (Option Error)
  | [] => pure none
  | lock :: rest => do
      match ← lock.release.outcome with
      | .ok () => releaseAll rest
      | .error error =>
          let _ ← releaseAll rest
          return some error

/-- An action that, if it fails, is followed by giving some locks back, the last one first. -/
def orGiveBack (locks : List AreaLock) (action : Action σ α) : Action σ α := do
  match ← action.outcome with
  | .ok value => return value
  | .error error =>
      let _ ← releaseAll locks.reverse
      throw error

/-- Locks what is at and below each of some directories. -/
def lockEach (lockOne : Path → Action σ (List AreaLock)) : List Path → Action σ (List AreaLock)
  | [] => return []
  | directory :: rest => do
      let first ← lockOne directory
      let others ← orGiveBack first (lockEach lockOne rest)
      return first ++ others

/-- Fails if the caller calls the operation off. -/
def poll (cancel : Option (Cancellation σ)) : Action σ Unit := do
  if let some ask := cancel then
    if ← Action.ofCaller ask then throw .cancelled

/--
Locks a directory and what is below it to a depth, at most `levels` directories deep, in the order in
which the directories are met. The caller is asked before each directory whether to go on.
-/
def lockLevels (cancel : Option (Cancellation σ)) (write : Bool) :
    Nat → Depth → Path → Action σ (List AreaLock)
  | 0, _, _ => return []
  | levels + 1, depth, directory => do
      poll cancel
      let lock ← acquire directory write depth
      match depth.child? with
      | none => return [lock]
      | some childDepth =>
          let below ← orGiveBack [lock] do
            let children ← Action.ofLook fun world => world.files.versionedChildren directory
            lockEach (lockLevels cancel write levels childDepth) children
          return lock :: below

/-- Locks a directory and what is below it to a depth. No directory lies deeper than there are
entries in the file system. -/
def lockTree (cancel : Option (Cancellation σ)) (write : Bool) (depth : Depth) (directory : Path) :
    Action σ (List AreaLock) := do
  lockLevels cancel write ((← get).files.nodes.length + 1) depth directory

end AreaLock

end Checkout
