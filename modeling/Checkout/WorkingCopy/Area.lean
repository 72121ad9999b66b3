import Checkout.FileSystem.Canonical
import Checkout.Sorting
import Checkout.WorkingCopy.Entries

/-!
# Administrative areas

A directory is versioned when its administrative directory `.svn` has a file `entries`. Beside it
stands `lock` while the directory is locked for writing.
-/

namespace Checkout

namespace Area

/-- The name of administrative directories. -/
def directoryName : OsText := ".svn"

/-- The administrative directory of a directory. -/
def directory (path : Path) : Path :=
  path.join directoryName

/-- The file with the record of a directory. -/
def entriesFile (path : Path) : Path :=
  (directory path).join "entries"

/-- The file that is locked while a directory is locked for writing. -/
def lockFile (path : Path) : Path :=
  (directory path).join "lock"

end Area

namespace FileSystem

/-- Whether a path leads to a versioned directory. -/
def isVersioned (files : FileSystem) (path : Path) : Bool :=
  files.isFile (Area.entriesFile path)

/-- The record of a versioned directory. -/
def entries (files : FileSystem) (path : Path) : Except Error Entries :=
  if !files.isVersioned path then .error (.notWorkingCopy path)
  else match files.read (Area.entriesFile path) with
    | .ok document => Entries.decode document
    | .error failure => .error (.io failure)

/--
Whether a versioned directory is the top of its working copy: the directory above is not versioned, or
it records a URL that does not lead here. In a URL the directory has the name that it is shown with.
-/
def isTop (files : FileSystem) (path : Path) : Except Error Bool := do
  let own ← files.entries path
  match path.parent?, path.name? with
  | some parent, some name =>
      if !files.isVersioned parent then return true
      let above ← files.entries parent
      return own.url ≠ above.url ++ "/" ++ name.shown
  | _, _ => return true

/--
The directory to lock for a path, and the entry in it that is meant. The top of a working copy is
locked itself; anything else is an entry of the directory above it. The entry is told by the name that
it is shown with, which is another one if its name is not UTF-8.
-/
def anchor (files : FileSystem) (path : Path) : Except Error (Path × Option String) := do
  let path ← files.canonical path
  let top ← if files.isVersioned path then files.isTop path else pure false
  if top then return (path, none)
  match path.parent?, path.name? with
  | some parent, some name => return (parent, some name.shown)
  | _, _ => return (path, none)

/-- The versioned directories in a directory, sorted by name; links do not count. -/
def versionedChildren (files : FileSystem) (path : Path) : Except Error (List Path) :=
  match files.list path with
  | .error failure => .error (.io failure)
  | .ok listing =>
      let children := listing.filterMap fun (name, node) =>
        if name = Area.directoryName ∨ node ≠ .directory then none
        else if files.isVersioned (path.join name) then some (path.join name)
        else none
      .ok (sorted Path.order children)

/-- The nearest versioned directory among a path and those above it. -/
def nearestVersioned? (files : FileSystem) (path : Path) : Option Path :=
  path.ancestors.find? files.isVersioned

end FileSystem

namespace Area

/-- Whether a URL belongs to a repository; trailing slashes of the repository's URL do not count. -/
def belongs (url repository : String) : Bool :=
  (trimEnd '/' repository).toList.isPrefixOf url.toList

/--
Makes a directory versioned, unless it is. An existing record has to be of the same URL. Tells whether
a record was created.
-/
def ensure (now : Timestamp) (path : Path) (uuid : Option String) (url : String)
    (repository : Option String) (revision : Nat) : FileAction Bool := do
  let url := trimEnd '/' url
  if url = "" then throw (.invalidArgument "url cannot be empty")
  if let some repository := repository then
    if !belongs url repository then
      throw (.invalidArgument
        ("url '" ++ url ++ "' is not inside repository root '" ++ repository ++ "'"))
  if (← get).isVersioned path then
    let existing ← FileAction.ofLook fun files => files.entries path
    if existing.url ≠ url then
      throw (.invalidArgument
        ("'" ++ path.shown ++ "' is already a working copy for '" ++ existing.url ++ "'"))
    return false
  (FileSystem.createDirectories (directory path)).run
  let entries : Entries :=
    { url, repository := repository.map (trimEnd '/'), uuid, revision, createdAt := now }
  (FileSystem.writeWhole (entriesFile path) entries.encode).run
  return true

end Area

end Checkout
