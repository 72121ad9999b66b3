import Checkout.Error
import Checkout.FileSystem.Change

/-!
# Canonical paths

The canonical form of a path is the absolute path of the entry it leads to. A path that leads
nowhere is resolved through the nearest existing path above it, as long as only names have to be
taken off; otherwise it is left as it is, made absolute.
-/

namespace Checkout

namespace FileSystem

/-- The absolute path, without links, of the entry a path leads to. Which paths are too long for this is up
to the C library; here they are those that are too long for any other call. -/
def realPath? (files : FileSystem) (path : Path) : Option Path :=
  match files.entry true path with
  | .ok (location, _) => some location.path
  | .error _ => none

/-- The path made absolute. -/
def absolute (files : FileSystem) (path : Path) : Path :=
  if path.isAbsolute then path else files.current.path.join path.text

/--
The canonical form of `existing` followed by the names `missing`, or `fallback` if something other
than a name has to be taken off. At most `bound` paths are tried.
-/
def canonicalFrom (files : FileSystem) (fallback : Path) : Nat → Path → List OsText → Path
  | 0, _, _ => fallback
  | bound + 1, existing, missing =>
      match files.realPath? existing with
      | some real => missing.foldl Path.join real
      | none =>
          match existing.parent?, existing.name? with
          | some parent, some name => canonicalFrom files fallback bound parent (name :: missing)
          | _, _ => fallback

/-- The canonical form of a path. -/
def canonical (files : FileSystem) (path : Path) : Except Error Path :=
  match files.realPath? path with
  | some real => .ok real
  | none =>
      if !path.isAbsolute ∧ files.node? files.current ≠ some .directory then
        .error (.io .notFound)
      else
        let absolute := files.absolute path
        .ok (canonicalFrom files absolute (absolute.body.length + 1) absolute [])

end FileSystem

/-- A change of the file system that fails with the errors of operations. -/
abbrev FileAction := EStateM Error FileSystem

/-- The failure of a file operation as an error. -/
def FileChange.run (change : FileChange α) : FileAction α := fun files =>
  match change files with
  | .ok value files => .ok value files
  | .error failure files => .error (.io failure) files

/-- The result of looking at the file system. -/
def FileAction.ofLook (look : FileSystem → Except Error α) : FileAction α := fun files =>
  match look files with
  | .ok value => .ok value files
  | .error error => .error error files

end Checkout
