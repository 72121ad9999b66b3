import Checkout.FileSystem.Failure
import Checkout.Path.Basic

/-!
# The file system

A tree of directories, regular files and symbolic links, with the advisory locks that live handles
hold on files. An entry is known by its location, the names that lead to it from the root; what a
path leads to is found by `FileSystem.resolve`. Files have an identity of their own, so one file can
have several names, and a lock on a file survives the loss of its name.
-/

namespace Checkout

/-- The place of an entry: the names that lead to it from the root. -/
abbrev Location := List OsText

/-- What has a name in a directory. -/
inductive Node where
  /-- A directory. -/
  | directory
  /-- A name of the regular file with this identity. -/
  | file (identity : Nat)
  /-- A symbolic link to the path `target`. -/
  | link (target : OsText)
  deriving DecidableEq, Repr

/-- The state of the files that all processes share, as seen from one current directory. -/
structure FileSystem where
  /-- Every entry but the root, which is always a directory. -/
  nodes : List (Location × Node)
  /-- The bytes of each file. -/
  contents : List (Nat × ByteArray)
  /-- The identity of the next new file. -/
  nextFile : Nat
  /-- The files on which some handle holds an exclusive lock. -/
  held : List Nat
  /-- Where relative paths start. -/
  current : Location
  deriving Inhabited

/-- What a path leads to. -/
inductive Spot where
  /-- An entry. -/
  | found (location : Location) (node : Node)
  /-- No entry, but a directory in which it could be created. -/
  | vacant (directory : Location) (name : OsText)
  deriving DecidableEq, Repr

/-- The absolute path of a location. -/
def Location.path (location : Location) : Path :=
  ⟨"/" ++ OsText.intercalate "/" location⟩

namespace FileSystem

/-- The entry at a location. -/
def node? (files : FileSystem) (location : Location) : Option Node :=
  if location = [] then some .directory
  else (files.nodes.find? fun entry => entry.1 = location).map Prod.snd

/-- The names in a path's text, with a `.` behind a trailing slash. -/
def steps (text : OsText) : List OsText :=
  let names := ((pieces OsText.slash text.bytes).filter (· ≠ [])).map OsText.mk
  if text.bytes.getLast? = some OsText.slash then names ++ [("." : OsText)] else names

/-- Where the steps of a path's text start. -/
def start (directory : Location) (text : OsText) : Location :=
  if text.bytes.head? = some OsText.slash then [] else directory

/-- The longest name an entry can have, in bytes. -/
def maxName : Nat := 255

/-- The length a path must stay below, in bytes. -/
def maxPath : Nat := 4096

/-- How many symbolic links a path may lead through. -/
def maxLinks : Nat := 40

/--
Walks `steps` down from `directory`. A link, other than a last one that is not to be followed, is
handed to `enter` with the steps behind it.
-/
def walkSteps (files : FileSystem) (followLast : Bool)
    (enter : Location → List OsText → Except IoFailure Spot) :
    Location → List OsText → Except IoFailure Spot
  | directory, [] => .ok (.found directory .directory)
  | directory, step :: rest =>
      if step = "." then walkSteps files followLast enter directory rest
      else if step = ".." then walkSteps files followLast enter directory.dropLast rest
      else if maxName < step.bytes.length then .error .nameTooLong
      else
        let location := directory ++ [step]
        match files.node? location with
        | none => if rest = [] then .ok (.vacant directory step) else .error .notFound
        | some .directory => walkSteps files followLast enter location rest
        | some (.file identity) =>
            if rest = [] then .ok (.found location (.file identity)) else .error .notDirectory
        | some (.link target) =>
            if rest = [] ∧ !followLast then .ok (.found location (.link target))
            else if target = "" then .error .notFound
            else enter (start directory target) (steps target ++ rest)

/-- Walks through at most `links` symbolic links. -/
def walk (files : FileSystem) (followLast : Bool) :
    Nat → Location → List OsText → Except IoFailure Spot
  | 0 => walkSteps files followLast fun _ _ => .error .tooManyLinks
  | links + 1 => walkSteps files followLast (walk files followLast links)

/-- The text of a path that a system call can take. -/
def callText (path : Path) : Except IoFailure OsText :=
  if path.text.bytes.contains 0 then .error .nulInPath
  else if path.text = "" then .error .notFound
  else if maxPath ≤ path.text.bytes.length then .error .nameTooLong
  else .ok path.text

/-- What a path leads to; a symbolic link at its end is followed if `followLast`. -/
def resolve (files : FileSystem) (followLast : Bool) (path : Path) : Except IoFailure Spot := do
  let text ← callText path
  if text.bytes.head? ≠ some OsText.slash ∧ files.node? files.current ≠ some .directory then
    throw .notFound
  walk files followLast maxLinks (start files.current text) (steps text)

/-- The entry a path leads to. -/
def entry (files : FileSystem) (followLast : Bool) (path : Path) :
    Except IoFailure (Location × Node) := do
  match ← files.resolve followLast path with
  | .found location node => .ok (location, node)
  | .vacant _ _ => .error .notFound

/-- Whether a path leads to a regular file. -/
def isFile (files : FileSystem) (path : Path) : Bool :=
  match files.entry true path with
  | .ok (_, .file _) => true
  | _ => false

/-- Whether a path leads to a directory. -/
def isDirectory (files : FileSystem) (path : Path) : Bool :=
  match files.entry true path with
  | .ok (_, .directory) => true
  | _ => false

/-- Whether a path leads to anything. -/
def leadsSomewhere (files : FileSystem) (path : Path) : Bool :=
  match files.entry true path with
  | .ok _ => true
  | .error _ => false

/-- Whether a path names an entry, be it a link to nothing. -/
def names (files : FileSystem) (path : Path) : Bool :=
  match files.entry false path with
  | .ok _ => true
  | .error _ => false

/-- The bytes of a file. -/
def bytes (files : FileSystem) (identity : Nat) : ByteArray :=
  ((files.contents.find? fun entry => entry.1 = identity).map Prod.snd).getD ByteArray.empty

/-- The bytes of the file a path leads to. -/
def read (files : FileSystem) (path : Path) : Except IoFailure ByteArray := do
  match ← files.entry true path with
  | (_, .file identity) => .ok (files.bytes identity)
  | _ => .error .isDirectory

/-- The names in a directory. -/
def listing (files : FileSystem) (directory : Location) : List (OsText × Node) :=
  files.nodes.filterMap fun (location, node) =>
    match location.getLast? with
    | some name => if location.dropLast = directory then some (name, node) else none
    | none => none

/-- The names in the directory a path leads to. -/
def list (files : FileSystem) (path : Path) : Except IoFailure (List (OsText × Node)) := do
  match ← files.entry true path with
  | (location, .directory) => .ok (files.listing location)
  | _ => .error .notDirectory

/-- The directories at or below a location. -/
def directoriesUnder (files : FileSystem) (top : Location) : List Location :=
  (if files.node? top = some .directory then [top] else []) ++
    files.nodes.filterMap fun (location, node) =>
      if node = .directory ∧ top.isPrefixOf location ∧ location ≠ top then some location else none

end FileSystem

end Checkout
