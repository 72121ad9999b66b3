import Checkout.CommandLine.Commands

/-!
# The program

A process of the program finds the name of a command in its arguments, reads them properly, runs the
command, and reports its result or its error. An argument that is not UTF-8 can stop it on the way.
-/

namespace Checkout.CommandLine

/-- How a process ends. -/
structure Exit where
  /-- What it has written to standard output. -/
  out : String := ""
  /-- What has gone to standard error. -/
  err : List Passage := []
  code : Nat
  /-- The files it leaves behind. -/
  files : FileSystem

/-- The end of a process that stops without reporting an error. -/
def Exit.panicked (err : List Passage) (panic : Panic) (files : FileSystem) : Exit where
  err := err ++ [.panic panic]
  code := 101
  files := files

/-- The version of the program. -/
def version : String := "0.1.0"

/-- How the program is used. -/
def usage : String :=
  "Usage: svnctx [--config <CONFIG>] [--non-interactive] [--json] [-q|--quiet] <COMMAND>\n\n" ++
    "Commands:\n" ++
    "  init <PATH> --url <URL> [--repos <REPOS>] [--uuid <UUID>] [--revision <REVISION>]\n" ++
    "  lock <PATH> [--depth <DEPTH>] [--write]\n" ++
    "  locked <PATH>\n" ++
    "  cleanup <PATH>\n" ++
    "  auth <REALM> [--kind <KIND>]\n" ++
    "  help [COMMAND]\n"

/-- Runs the command of an invocation, with what standard output gets if it succeeds. -/
def execute (now : Timestamp) (invocation : Invocation) : Action Console String := do
  let result ← runCommand now invocation
  Action.ofOutcome (Report.success ⟨invocation.json, invocation.quiet⟩ invocation.command.name.text
    result.data (some result.human))

/-- The events of a command that works on a working copy, as far as they are not told by the command
itself. -/
abbrev Telling := Invocation → World Console → List Event

/-- Runs an invocation to its end. An error is reported under the name that the arguments seem to give
the command. -/
def runInvocation (telling : Telling) (now : Timestamp) (name : String) (invocation : Invocation)
    (world : World Console) : Exit :=
  let events := match invocation.command with
    | .auth _ _ => []
    | _ => telling invocation world
  match execute now invocation world with
  | .ok out last =>
      { out, err := (last.caller.after events).err, code := 0, files := last.files }
  | .error error last =>
      let told := (last.caller.after events).err
      match Report.failure name error invocation.json with
      | .ok report =>
          { out := report.out
            err := told ++ [.text report.err]
            code := error.exitCode
            files := last.files }
      | .error panic => .panicked told panic last.files

/-- Runs the program: its environment, how it was called and its arguments, the bytes of its standard
input, and the files it finds. -/
def run (telling : Telling) (now : Timestamp) (environment : Environment) (program : OsText)
    (arguments : List OsText) (input : List UInt8) (files : FileSystem) : Exit :=
  match inferredName program arguments with
  | .error panic => .panicked [] panic files
  | .ok name =>
      match Request.ofArguments environment arguments with
      | .run invocation =>
          runInvocation telling now name invocation
            { files, claims := [], environment, caller := { input } }
      | .version none => { out := programName ++ " " ++ version ++ "\n", code := 0, files }
      | .version (some name) =>
          { out := programName ++ "-" ++ name.text ++ " " ++ version ++ "\n", code := 0, files }
      | .help => { out := usage, code := 0, files }
      | .misuse => { err := [.text usage], code := 2, files }

end Checkout.CommandLine
