import Checkout.CommandLine.Trace

/-!
# The console

A prompt on the console writes its question to standard error and reads its answer, a line, from
standard input. The end of input is no answer and leaves the record as it is.
-/

namespace Checkout.CommandLine

/-- What is left of standard input, and what has gone to standard error. -/
structure Console where
  input : List UInt8
  err : List Passage := []
  deriving DecidableEq, Repr, Inhabited

namespace Console

/-- The bytes up to and including the next line feed, and the bytes behind it. -/
def splitLine : List UInt8 → List UInt8 × List UInt8
  | [] => ([], [])
  | byte :: rest =>
      if byte = 10 then ([byte], rest)
      else
        let (line, rest) := splitLine rest
        (byte :: line, rest)

/-- The line without the line feeds and carriage returns at its end. -/
def trimLineEnd (line : String) : String :=
  String.ofList (line.toList.reverse.dropWhile fun char => char = '\r' || char = '\n').reverse

/-- The console after some events. -/
def after (console : Console) (events : List Event) : Console :=
  { console with err := console.err ++ events.map .event }

/-- Writes to standard error. -/
def write (text : String) : StateM Console Unit :=
  modify fun console => { console with err := console.err ++ [.text text] }

/-- Reads a line. There is none at the end of input. -/
def readLine : StateM Console (Except Error (Option String)) := do
  let (line, rest) := splitLine (← get).input
  modify fun console => { console with input := rest }
  if line = [] then return .ok none
  match String.fromUTF8? ⟨line.toArray⟩ with
  | some text => return .ok (some (trimLineEnd text))
  | none => return .error (.io .notUnicode)

/-- Asks a question. An empty line stands for the answer that is offered, if one is. -/
def ask (question : String) (offer : Option String) : StateM Console (Except Error (Option String)) := do
  write (match offer with
    | some offered => question ++ " [" ++ offered ++ "]: "
    | none => question ++ ": ")
  match ← readLine with
  | .error error => return .error error
  | .ok none => return .ok none
  | .ok (some answer) => return .ok (if answer = "" then offer else some answer)

/-- Fills in a record by asking for its parts. The attempts that failed have left their records incomplete. -/
def prompt : Prompt Console := fun context record => do
  if 0 < context.priorFailures then
    modify (·.after [.leftEmpty context.kind context.realm (context.priorFailures - 1)])
    write "Authentication failed, try again.\n"
  write ("Authentication realm: " ++ context.realm ++ "\n")
  match record with
  | .simple _ password maySave =>
      match ← ask "Username" context.username with
      | .error error => return .error error
      | .ok none => return .ok record
      | .ok (some user) =>
          match ← ask ("Password for '" ++ user ++ "'") none with
          | .error error => return .error error
          | .ok secret => return .ok (.simple user (secret.getD password) maySave)
  | .username _ maySave =>
      match ← ask "Username" context.username with
      | .error error => return .error error
      | .ok none => return .ok record
      | .ok (some user) => return .ok (.username user maySave)
  | _ => return .ok record

end Console

end Checkout.CommandLine
