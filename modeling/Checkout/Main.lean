import Checkout.CommandLine.Program
import Checkout.FileSystem.Edit
import Std.Time.DateTime.Timestamp

/-!
# The program

The outer layer around `CommandLine.run`. It looks at the files that the arguments, the settings and
the current directory lead to, runs the command on what it has seen, and then makes on the disk the
edits that the command has made. Of a working copy everything is seen, of other directories only what
a path leads through; the bytes of a file are read where a path ends and in administrative areas.
Names are handled as texts here, and no event is ever told.
-/

namespace Checkout.CommandLine

/-- What is at a path, without following a link. -/
def kindAt (path : String) : IO (Option IO.FS.FileType) := do
  try
    return some (← ((← IO.currentDir) / path).symlinkMetadata).type
  catch _ => return none

/-- The bytes of a file; of one that cannot be read there are none. -/
def bytesAt (path : String) : IO ByteArray := do
  try IO.FS.readBinFile path catch _ => return ByteArray.empty

/-- The names in a directory; of one that cannot be read there are none. -/
def namesAt (path : String) : IO (List OsText) := do
  try
    return (← ((← IO.currentDir) / path).readDir).toList.map fun entry => OsText.ofString entry.fileName
  catch _ => return []

/-- Whether another process holds the lock on a file. -/
def isHeldElsewhere (path : String) : IO Bool := do
  try
    let handle ← IO.FS.Handle.mk path .read
    let free ← handle.tryLock
    if free then handle.unlock
    return !free
  catch _ => return false

/-- What a symbolic link leads to in the end; one that leads nowhere is taken to lead to nothing. -/
def linkTarget (path : String) : IO String := do
  try
    return (← IO.FS.realPath path).toString
  catch _ => return "/dev/null/nothing"

/-- Sees the entry at a location, and if it belongs to a working copy, what is below it. -/
partial def seeEntry (location : Location) (files : FileSystem) : IO FileSystem := do
  if (files.node? location).isSome then return files
  let path := location.path.shown
  let administrative := location.contains Area.directoryName
  match ← kindAt path with
  | some .dir =>
    let names ← namesAt path
    let mut files := files.put location .directory
    if administrative || names.contains Area.directoryName then
      for name in names do
        files ← seeEntry (location ++ [name]) files
    return files
  | some .file =>
    let bytes ← if administrative then bytesAt path else pure ByteArray.empty
    let seen := files.putFile location bytes
    return if administrative && (← isHeldElsewhere path) then
      { seen with held := files.nextFile :: seen.held } else seen
  | some .symlink => return files.put location (.link (OsText.ofString (← linkTarget path)))
  | _ => return files

/-- Sees what some steps down from a directory lead through, and the bytes of a file at their end. -/
partial def seeSteps (directory : Location) (steps : List OsText) (files : FileSystem) :
    IO FileSystem := do
  match steps with
  | [] => return files
  | step :: rest =>
    if step = ("." : OsText) then return ← seeSteps directory rest files
    if step = (".." : OsText) then return ← seeSteps directory.dropLast rest files
    let location := directory ++ [step]
    let files ← seeEntry location files
    match files.node? location with
    | some .directory => seeSteps location rest files
    | some (.link target) => seeSteps [] (FileSystem.steps target ++ rest) files
    | some (.file identity) => return files.setBytes identity (← bytesAt location.path.shown)
    | none => return files

/-- Sees what a path leads through. -/
def see (files : FileSystem) (path : OsText) : IO FileSystem :=
  seeSteps (FileSystem.start files.current path) (FileSystem.steps path) files

/-- The files that an invocation can be about. -/
def visibleFiles (environment : Environment) (arguments : List String) : IO FileSystem := do
  let current := (← IO.currentDir).toString
  let none : FileSystem :=
    { nodes := [], contents := [], nextFile := 0, held := [], current := FileSystem.steps current }
  let values := arguments.flatMap fun argument =>
    [argument, String.intercalate "=" ((argument.splitOn "=").drop 1)]
  let settings := (environment.get? "SVNCTX_CONFIG").toList ++
    (Settings.defaultPath? environment).toList.map Path.text
  ([OsText.ofString current] ++ settings ++ values.map OsText.ofString).foldlM see none

/-- Makes an edit on the disk. A file appears with all its bytes at once. -/
def perform : Edit → IO Unit
  | .removeFile location => IO.FS.removeFile location.path.shown
  | .removeDirectory location => IO.FS.removeDir location.path.shown
  | .makeDirectory location => IO.FS.createDir location.path.shown
  | .putFile location bytes => do
    let path := location.path.shown
    IO.FS.writeBinFile (path ++ ".new") bytes
    IO.FS.rename (path ++ ".new") path

/-- The variables that the program looks at. -/
def readEnvironment : IO Environment := do
  let names := ["HOME", "USER", "USERNAME", "SVNCTX_CONFIG", "SVNCTX_NON_INTERACTIVE",
    "XDG_CONFIG_HOME"]
  let entries ← names.filterMapM fun name => do
    return (← IO.getEnv name).map fun value => (name, OsText.ofString value)
  return { entries }

/-- The point in time that the system's clock shows. -/
def readClock : IO Timestamp := do
  let nanoseconds := (← Std.Time.Timestamp.now).toNanosecondsSinceUnixEpoch.val.toNat
  return Timestamp.ofClock (nanoseconds / 1000000000) (nanoseconds % 1000000000)

/-- The bytes of a stream up to its end. -/
partial def readAll (stream : IO.FS.Stream) (before : ByteArray) : IO ByteArray := do
  let bytes ← stream.read 4096
  if bytes.isEmpty then return before else readAll stream (before ++ bytes)

/-- Whether a command may ask on the console. -/
def mayAsk (environment : Environment) (arguments : List String) : Bool :=
  match Request.ofArguments environment (arguments.map OsText.ofString) with
  | .run invocation => invocation.command.name = .auth
  | _ => false

end Checkout.CommandLine

open Checkout CommandLine in
/-- Runs the program. -/
def main (arguments : List String) : IO UInt32 := do
  let environment ← readEnvironment
  let input ← if mayAsk environment arguments then readAll (← IO.getStdin) ByteArray.empty
    else pure ByteArray.empty
  let files ← visibleFiles environment arguments
  let exit := run (fun _ _ => []) (← readClock) environment programName
    (arguments.map OsText.ofString) input.toList files
  for edit in files.edits exit.files do
    perform edit
  (← IO.getStdout).putStr exit.out
  (← IO.getStderr).putStr (ownText exit.err)
  return exit.code.toUInt32
