import Checkout.FileSystem.Basic

/-!
# Changing the file system

Each change either happens or fails with a reason; a change of several steps that fails on the way
leaves the steps before it done.
-/

namespace Checkout

/-- A change of the file system with a result. -/
abbrev FileChange := EStateM IoFailure FileSystem

namespace FileSystem

/-- Names `node` at a location, in place of what was there. -/
def put (files : FileSystem) (location : Location) (node : Node) : FileSystem :=
  { files with nodes := files.nodes.filter (fun entry => entry.1 ≠ location) ++ [(location, node)] }

/-- Takes the name at a location away. -/
def erase (files : FileSystem) (location : Location) : FileSystem :=
  { files with nodes := files.nodes.filter fun entry => entry.1 ≠ location }

/-- Takes a location and everything below it away. -/
def eraseTree (files : FileSystem) (top : Location) : FileSystem :=
  { files with nodes := files.nodes.filter fun entry => !top.isPrefixOf entry.1 }

/-- Sets the bytes of a file. -/
def setBytes (files : FileSystem) (identity : Nat) (bytes : ByteArray) : FileSystem :=
  { files with
    contents := (identity, bytes) :: files.contents.filter fun entry => entry.1 ≠ identity }

/-- Creates a file at a location, in place of what was there. -/
def putFile (files : FileSystem) (location : Location) (bytes : ByteArray) : FileSystem :=
  let identity := files.nextFile
  { (files.put location (.file identity)).setBytes identity bytes with nextFile := identity + 1 }

/-- The place that a path names for an entry to be created, replaced or removed. -/
structure Place where
  /-- The directory of the entry. -/
  directory : Location
  /-- The name of the entry. There is none when the path ends in the root, a `.` or a `..`. -/
  name? : Option OsText
  /-- Whether a slash follows the name. -/
  trailingSlash : Bool
  deriving DecidableEq, Repr

/-- The entry's location. -/
def Place.location (place : Place) : Location :=
  place.directory ++ place.name?.toList

/-- The place that a path names; everything but the last name has to lead to a directory. -/
def place (files : FileSystem) (path : Path) : Except IoFailure Place := do
  let text ← callText path
  if text.bytes.head? ≠ some OsText.slash ∧ files.node? files.current ≠ some .directory then
    throw .notFound
  let names := ((pieces OsText.slash text.bytes).filter (· ≠ [])).map OsText.mk
  let directory ← match ← walk files true maxLinks (start files.current text) names.dropLast with
    | .found location .directory => pure location
    | .found _ _ => throw .notDirectory
    | .vacant _ _ => throw .notFound
  let trailingSlash := text.bytes.getLast? = some OsText.slash
  match names.getLast? with
  | none => return { directory, name? := none, trailingSlash }
  | some last =>
      if last = "." ∨ last = ".." then return { directory, name? := none, trailingSlash }
      else if maxName < last.bytes.length then throw .nameTooLong
      else return { directory, name? := some last, trailingSlash }

/-- Creates a directory. -/
def createDirectory (path : Path) : FileChange Unit := fun files =>
  match files.place path with
  | .error failure => .error failure files
  | .ok place =>
      if place.name? = none ∨ files.node? place.location ≠ none then .error .alreadyExists files
      else .ok () (files.put place.location .directory)

/--
Creates the directories of a chain of paths, given from the innermost upwards. It goes up until a
directory is there or can be created, and then down again.
-/
def createChain : List Path → FileChange Unit
  | [] => pure ()
  | path :: above => fun files =>
      if path.components = [] then .ok () files
      else match createDirectory path files with
        | .ok () files => .ok () files
        | .error failure files =>
            if failure = .notFound then
              match createChain above files with
              | .error failure files => .error failure files
              | .ok () files =>
                  match createDirectory path files with
                  | .ok () files => .ok () files
                  | .error failure files =>
                      if failure = .alreadyExists ∧ files.isDirectory path then .ok () files
                      else .error failure files
            else if failure = .alreadyExists ∧ files.isDirectory path then .ok () files
            else .error failure files

/-- Creates a directory and what is missing above it; an existing directory will do. -/
def createDirectories (path : Path) : FileChange Unit :=
  createChain path.ancestors

/-- The file a path leads to, opened for writing; it is created empty if it is missing. -/
def openFile (path : Path) : FileChange Nat := fun files =>
  match files.place path with
  | .error failure => .error failure files
  | .ok place =>
      if place.name? = none ∨ place.trailingSlash then .error .isDirectory files
      else match files.resolve true path with
        | .error failure => .error failure files
        | .ok (.found _ (.file identity)) => .ok identity files
        | .ok (.found _ _) => .error .isDirectory files
        | .ok (.vacant directory name) =>
            .ok files.nextFile (files.putFile (directory ++ [name]) ByteArray.empty)

/-- Writes a file, creating it if it is missing. -/
def writeFile (path : Path) (bytes : ByteArray) : FileChange Unit := do
  let identity ← openFile path
  modify fun files => files.setBytes identity bytes

/-- Puts a new file in the place of whatever file or link has the name. -/
def replaceFile (path : Path) (bytes : ByteArray) : FileChange Unit := fun files =>
  match files.place path with
  | .error failure => .error failure files
  | .ok place =>
      if place.name? = none then .error .busy files
      else if place.trailingSlash then .error .notDirectory files
      else if files.node? place.location = some .directory then .error .isDirectory files
      else .ok () (files.putFile place.location bytes)

/-- Takes the name of a file or link away. -/
def unlink (path : Path) : FileChange Unit := fun files =>
  match files.place path with
  | .error failure => .error failure files
  | .ok place =>
      if place.name? = none then .error .isDirectory files
      else match files.node? place.location with
        | none => .error .notFound files
        | some .directory => .error .isDirectory files
        | some _ =>
            if place.trailingSlash then .error .notDirectory files
            else .ok () (files.erase place.location)

/-- Creates a symbolic link. -/
def createLink (path : Path) (target : OsText) : FileChange Unit := fun files =>
  match callText ⟨target⟩ with
  | .error failure => .error failure files
  | .ok _ =>
      match files.place path with
      | .error failure => .error failure files
      | .ok place =>
          if place.name? = none ∨ files.node? place.location ≠ none then
            .error .alreadyExists files
          else if place.trailingSlash then .error .notFound files
          else .ok () (files.put place.location (.link target))

/-- Removes a file, a link, or a directory with all it holds. -/
def remove (path : Path) : FileChange Unit := fun files =>
  match files.entry false path with
  | .error failure => .error failure files
  | .ok (location, .directory) => .ok () (files.eraseTree location)
  | .ok _ => unlink path files

/--
Puts a file with `bytes` at a path, creating the directories above it. The new content appears all
at once: readers see the old file or the new one.
-/
def writeWhole (path : Path) (bytes : ByteArray) : FileChange Unit := do
  let directory := match path.parent? with
    | some parent => if parent.text = "" then ⟨"."⟩ else parent
    | none => ⟨"."⟩
  createDirectories directory
  replaceFile path bytes

end FileSystem

end Checkout
