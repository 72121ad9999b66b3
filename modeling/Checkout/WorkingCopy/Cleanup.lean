import Checkout.Lock.Directory

/-!
# Cleaning up stale locks

A process that dies leaves its lock files behind. Cleaning up walks a working copy in the order in
which it would be locked, and removes the lock files that nobody holds.
-/

namespace Checkout

namespace Cleanup

variable {σ : Type}

/-- Removes the lock file of a directory if it is stale. Tells whether it was. -/
def cleanDirectory (directory : Path) : Action σ Bool := do
  let world ← get
  let lockFile := Area.lockFile directory
  if world.files.leadsSomewhere lockFile && !world.isClaimed directory then
    Action.ofFiles (FileLock.removeStale lockFile)
  else return false

/-- Cleans at most `bound` directories: the pending ones, each followed by those below it. Returns the
directories that had a stale lock file. -/
def cleanPending : Nat → List Path → Action σ (List Path)
  | 0, _ => return []
  | _, [] => return []
  | bound + 1, directory :: pending => do
      let stale ← cleanDirectory directory
      let children ← Action.ofLook fun world => world.files.versionedChildren directory
      let others ← cleanPending bound (children ++ pending)
      return if stale then directory :: others else others

/-- Cleans a working copy. Returns the directories that had a stale lock file. No more directories are
met than there are entries in the file system. -/
def clean (path : Path) : Action σ (List Path) := do
  let files := (← get).files
  let path ← Action.ofOutcome (files.canonical path)
  if !files.isVersioned path then throw (.notWorkingCopy path)
  cleanPending (files.nodes.length + 1) [path]

end Cleanup

/-- Whether a versioned directory is locked for writing by anyone, in this process or another. -/
def FileSystem.isWriteLocked (files : FileSystem) (path : Path) : Except Error Bool :=
  if files.isVersioned path then files.isHeldAt (Area.lockFile path)
  else .error (.notWorkingCopy path)

end Checkout
