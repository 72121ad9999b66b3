import Checkout.Lock.Tree

/-!
# Hierarchies of locks

The locks that were opened together under one root directory, on record by directory in the order of
paths, which is also the order in which a tree is locked. Closing a lock closes everything below it
first. Operations find a lock by the canonical form of a path.
-/

namespace Checkout

variable {σ : Type} {α : Type}

/-- Locks under one root directory. -/
structure Hierarchy where
  /-- The root directory. -/
  root : Path
  /-- The locks, open or closed, one for a directory, in the order of paths. -/
  locks : List AreaLock
  deriving DecidableEq, Repr

namespace Hierarchy

/-- The lock on record for a directory. -/
def find? (hierarchy : Hierarchy) (directory : Path) : Option AreaLock :=
  hierarchy.locks.find? fun lock => lock.path.same directory

/-- The hierarchy with a lock on record, in place of any other one for the directory. -/
def insert (hierarchy : Hierarchy) (lock : AreaLock) : Hierarchy :=
  { hierarchy with
    locks := insertSorted (fun left right => left.path.order right.path) lock
      (hierarchy.locks.filter fun other => !other.path.same lock.path) }

/-- The hierarchy with several locks on record. -/
def insertAll (hierarchy : Hierarchy) (locks : List AreaLock) : Hierarchy :=
  locks.foldl insert hierarchy

/-- The lock on the root directory. -/
def rootLock? (hierarchy : Hierarchy) : Option AreaLock :=
  hierarchy.find? hierarchy.root

/-- Whether the lock on the root directory is open. -/
def isRootOpen (hierarchy : Hierarchy) : Bool :=
  hierarchy.rootLock?.any AreaLock.isOpen

/-- The open locks, in the order of paths. -/
def openLocks (hierarchy : Hierarchy) : List AreaLock :=
  hierarchy.locks.filter AreaLock.isOpen

/-- The directories with an open lock, in the order of paths. -/
def lockedPaths (hierarchy : Hierarchy) : List Path :=
  hierarchy.openLocks.map AreaLock.path

/-! ## Opening -/

/-- Opens a hierarchy with a versioned directory at its root. -/
def openAt (cancel : Option (Cancellation σ)) (write : Bool) (depth : Depth) (path : Path) :
    Action σ Hierarchy := do
  let root ← Action.ofLook fun world => world.files.canonical path
  let locks ← AreaLock.lockTree cancel write depth root
  return insertAll { root, locks := [] } locks

/--
Opens a hierarchy for a path that may not be a versioned directory itself. Then its root is the
nearest versioned directory above the path; unless the path is a directory, that one is locked alone.
-/
def probeOpen (cancel : Option (Cancellation σ)) (write : Bool) (depth : Depth) (path : Path) :
    Action σ Hierarchy := do
  let files := (← get).files
  let path ← Action.ofOutcome (files.canonical path)
  if files.isVersioned path then openAt cancel write depth path
  else
    let depth := if files.isDirectory path then depth else .empty
    match path.parent?.bind files.nearestVersioned? with
    | some directory => openAt cancel write depth directory
    | none => throw (.notWorkingCopy path)

/-- Gives all open locks back, the last one first, when nobody is there to hear of an error. -/
def drop (hierarchy : Hierarchy) : Action σ Unit :=
  discard (AreaLock.releaseAll hierarchy.openLocks.reverse)

/-! ## Looking locks up -/

/-- The lock on record for a path. -/
def get? (files : FileSystem) (hierarchy : Hierarchy) (path : Path) : Option AreaLock :=
  match files.canonical path with
  | .ok path => hierarchy.find? path
  | .error _ => none

/-- Whether a path has an open lock. -/
def isLocked (files : FileSystem) (hierarchy : Hierarchy) (path : Path) : Bool :=
  (hierarchy.get? files path).any AreaLock.isOpen

/-- The open lock for exactly a path. -/
def retrieve (files : FileSystem) (hierarchy : Hierarchy) (path : Path) :
    Except Error AreaLock := do
  let path ← files.canonical path
  match hierarchy.find? path with
  | some lock => if lock.isOpen then return lock else throw (.alreadyClosed path)
  | none => throw (.noLock path)

/-- The open lock for a path or else for the nearest directory above it, down from the root. -/
def probeRetrieve (files : FileSystem) (hierarchy : Hierarchy) (path : Path) :
    Except Error AreaLock := do
  let path ← files.canonical path
  let inReach := path.ancestors.takeWhile fun directory => directory.isUnder hierarchy.root
  match inReach.findSome? fun directory => (hierarchy.find? directory).filter AreaLock.isOpen with
  | some lock => return lock
  | none => throw (.noLock path)

end Hierarchy

/-! ## Operations on a hierarchy -/

/-- An operation on the world and a hierarchy. Both keep what it changed even if it fails. -/
abbrev HierarchyAction (σ : Type) := EStateM Error (World σ × Hierarchy)

namespace HierarchyAction

/-- An action that leaves the hierarchy as it is. -/
def ofAction (action : Action σ α) : HierarchyAction σ α := fun (world, hierarchy) =>
  match action world with
  | .ok value world => .ok value (world, hierarchy)
  | .error error world => .error error (world, hierarchy)

/-- A look at the files and the hierarchy. -/
def ofLook (look : FileSystem → Hierarchy → Except Error α) : HierarchyAction σ α :=
  fun (world, hierarchy) =>
    match look world.files hierarchy with
    | .ok value => .ok value (world, hierarchy)
    | .error error => .error error (world, hierarchy)

/-- Changes the hierarchy. -/
def update (change : Hierarchy → Hierarchy) : HierarchyAction σ Unit :=
  modify fun (world, hierarchy) => (world, change hierarchy)

end HierarchyAction

namespace Hierarchy

/-- Opens further locks, for a directory under the root that has no open lock yet. -/
def openChild (cancel : Option (Cancellation σ)) (write : Bool) (depth : Depth) (path : Path) :
    HierarchyAction σ AreaLock := do
  let path ← HierarchyAction.ofLook fun files _ => files.canonical path
  let (world, hierarchy) ← get
  if !path.isUnder hierarchy.root then
    throw (.invalidArgument ("'" ++ path.shown ++ "' is outside the hierarchy rooted at '" ++
      hierarchy.root.shown ++ "'"))
  if !hierarchy.isRootOpen then throw (.alreadyClosed hierarchy.root)
  if hierarchy.isLocked world.files path then throw (.alreadyLocked path)
  let locks ← HierarchyAction.ofAction (AreaLock.lockTree cancel write depth path)
  HierarchyAction.update fun hierarchy => hierarchy.insertAll locks
  HierarchyAction.ofLook fun files hierarchy => hierarchy.retrieve files path

/--
The open lock of the nearest versioned directory at or above a path. If there is none it is opened,
at the depth asked for if the path is that directory.
-/
def probeTry (cancel : Option (Cancellation σ)) (write : Bool) (depth : Depth) (path : Path) :
    HierarchyAction σ AreaLock := do
  let path ← HierarchyAction.ofLook fun files _ => files.canonical path
  let (world, hierarchy) ← get
  match world.files.nearestVersioned? path with
  | none => throw (.notWorkingCopy path)
  | some directory =>
      if hierarchy.isLocked world.files directory then
        HierarchyAction.ofLook fun files hierarchy => hierarchy.retrieve files directory
      else
        openChild cancel write (if directory.same path then depth else .empty) directory

/--
Closes the lock for a path and every open lock below it, the last one first, and goes on even if a
lock file cannot be removed. A lock that was closed already is an error, but what is open below it is
closed all the same.
-/
def closeLock (path : Path) : HierarchyAction σ Unit := do
  let path ← HierarchyAction.ofLook fun files _ => files.canonical path
  let (_, hierarchy) ← get
  match hierarchy.find? path with
  | none => throw (.noLock path)
  | some lock =>
      let doomed := hierarchy.openLocks.filter fun lock => lock.path.isUnder path
      let failure ← HierarchyAction.ofAction (AreaLock.releaseAll doomed.reverse)
      HierarchyAction.update fun hierarchy =>
        { hierarchy with
          locks := hierarchy.locks.map fun lock =>
            if lock.path.isUnder path then lock.closed else lock }
      if !lock.isOpen then throw (.alreadyClosed path)
      if let some error := failure then throw error

/-- Closes the whole hierarchy. -/
def close : HierarchyAction σ Unit := do
  let (_, hierarchy) ← get
  closeLock hierarchy.root

end Hierarchy

/-! ## Anchors -/

/-- A hierarchy opened for a path through the directory that has the path as an entry. -/
structure Anchored where
  /-- The locks; the root is the anchor. -/
  hierarchy : Hierarchy
  /-- The entry of the anchor that is meant, as it is shown; there is none when the anchor itself is. -/
  target : Option String
  deriving DecidableEq, Repr

namespace Anchored

/-- Locks the target of an anchor that has just been opened. If that fails the anchor is closed again. -/
def openTarget (cancel : Option (Cancellation σ)) (write : Bool) (depth : Depth) (anchor : Path)
    (target : String) (hierarchy : Hierarchy) : Action σ Anchored := fun world =>
  match Hierarchy.openChild cancel write depth (anchor.join target) (world, hierarchy) with
  | .ok _ (world, hierarchy) => .ok { hierarchy, target := some target } world
  | .error error (world, hierarchy) =>
      let (world, hierarchy) := match Hierarchy.close (world, hierarchy) with
        | .ok _ state => state
        | .error _ state => state
      match hierarchy.drop world with
      | .ok _ world => .error error world
      | .error _ world => .error error world

/--
Opens the anchor of a path. The top of a working copy is its own anchor, opened at the depth asked
for; any other anchor is locked alone, and with it the target if that is a versioned directory.
-/
def openAnchor (cancel : Option (Cancellation σ)) (write : Bool) (depth : Depth) (path : Path) :
    Action σ Anchored := do
  match ← Action.ofLook fun world => world.files.anchor path with
  | (anchor, none) =>
      return { hierarchy := ← Hierarchy.openAt cancel write depth anchor, target := none }
  | (anchor, some target) =>
      let hierarchy ← Hierarchy.openAt cancel write .empty anchor
      if (← get).files.isVersioned (anchor.join target) then
        openTarget cancel write depth anchor target hierarchy
      else return { hierarchy, target := some target }

/-- The path of the target. -/
def targetPath (anchored : Anchored) : Path :=
  match anchored.target with
  | some name => anchored.hierarchy.root.join name
  | none => anchored.hierarchy.root

/-- The lock of the target if it has one, else the lock of the anchor. -/
def targetLock (files : FileSystem) (anchored : Anchored) : Except Error AreaLock :=
  anchored.hierarchy.probeRetrieve files anchored.targetPath

end Anchored

end Checkout
