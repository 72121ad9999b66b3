import Checkout.FileSystem.Canonical

/-!
# Lock files

A lock file is locked by an advisory lock on the file itself, which its holder keeps until it lets
go. Nobody ever waits for it. A file that is there but that nobody holds is stale, and stands in
nobody's way.
-/

namespace Checkout

namespace FileSystem

/-- Whether some handle holds the lock on a file. -/
def isHeld (files : FileSystem) (identity : Nat) : Bool :=
  files.held.contains identity

/-- The state in which the lock on a file is held. -/
def hold (files : FileSystem) (identity : Nat) : FileSystem :=
  { files with held := identity :: files.held }

/-- The state in which the lock on a file is free. -/
def unhold (files : FileSystem) (identity : Nat) : FileSystem :=
  { files with held := files.held.filter (· ≠ identity) }

/-- Whether the file at a path is locked; a file that is not there is not. -/
def isHeldAt (files : FileSystem) (path : Path) : Except Error Bool :=
  match files.entry true path with
  | .ok (_, .file identity) => .ok (files.isHeld identity)
  | .ok _ => .ok false
  | .error failure => if failure = .notFound then .ok false else .error (.io failure)

end FileSystem

/-- The lock on a file, in the hands of its holder. -/
structure FileLock where
  /-- Which file is locked. -/
  identity : Nat
  /-- The path by which it was found. -/
  path : Path
  deriving DecidableEq, Repr

namespace FileLock

/-- Locks the file at a path, creating it if it is missing. There is no lock if the file is locked
already. -/
def tryAcquire (path : Path) : FileAction (Option FileLock) := do
  let identity ← (FileSystem.openFile path).run
  if (← get).isHeld identity then return none
  modify fun files => files.hold identity
  return some { identity, path }

/-- Lets the lock go and leaves the file where it is. -/
def drop (lock : FileLock) : FileAction Unit :=
  modify fun files => files.unhold lock.identity

/-- Removes the file and lets the lock go, even if the file cannot be removed; it does not matter if
the file is gone already. -/
def remove (lock : FileLock) : FileAction Unit := fun files =>
  match FileSystem.unlink lock.path files with
  | .ok () files => .ok () (files.unhold lock.identity)
  | .error failure files =>
      if failure = .notFound then .ok () (files.unhold lock.identity)
      else .error (.io failure) (files.unhold lock.identity)

/-- Removes the file at a path unless it is locked. Tells whether a file was removed. -/
def removeStale (path : Path) : FileAction Bool := do
  let files ← get
  match files.entry true path with
  | .ok (_, .file identity) =>
      if files.isHeld identity then return false
      set (files.hold identity)
      remove { identity, path }
      return true
  | .ok _ => throw (.io .isDirectory)
  | .error failure => if failure = .notFound then return false else throw (.io failure)

end FileLock

end Checkout
