import Checkout.CommandLine.Token
import Checkout.Environment
import Checkout.Error
import Checkout.Path.Basic
import Checkout.Text.Digits

/-!
# Invocations

The arguments of the program: options, the name of a command, and the operand and options of that
command. The options that all commands know may stand in front of the name or behind it. Reading goes
from left to right and ends at the first argument that cannot be right, or that asks for help or for
the version.
-/

namespace Checkout.CommandLine

/-- The commands by name. -/
inductive CommandName where
  | init
  | lock
  | locked
  | cleanup
  | auth
  deriving DecidableEq, Repr, Inhabited

namespace CommandName

/-- Every command. -/
def all : List CommandName := [.init, .lock, .locked, .cleanup, .auth]

/-- The name as it is written. -/
def text : CommandName → String
  | .init => "init"
  | .lock => "lock"
  | .locked => "locked"
  | .cleanup => "cleanup"
  | .auth => "auth"

/-- The command with a name. -/
def ofText? (text : OsText) : Option CommandName :=
  all.find? fun name => OsText.ofString name.text = text

end CommandName

/-- Options that are there or not. -/
inductive Switch where
  | nonInteractive
  | json
  | quiet
  | write
  deriving DecidableEq, Repr

/-- Options with a value. -/
inductive Setting where
  | settingsFile
  | url
  | repository
  | uuid
  | revision
  | depth
  | kind
  deriving DecidableEq, Repr

/-- What has been read. -/
structure Given where
  switches : List Switch := []
  settings : List (Setting × OsText) := []
  operand : Option OsText := none
  deriving DecidableEq, Repr

namespace Given

/-- Adds a switch, which must be new. -/
def addSwitch? (given : Given) (switch : Switch) : Option Given :=
  if given.switches.contains switch then none
  else some { given with switches := given.switches ++ [switch] }

/-- Whether a setting can have a value. Only the name of a file need not be UTF-8. -/
def accepts : Setting → OsText → Bool
  | .settingsFile, value => value ≠ ""
  | .revision, value => (value.text?.bind (unsigned? UInt64.size)).isSome
  | _, value => value.text?.isSome

/-- The value of a setting. -/
def value? (given : Given) (setting : Setting) : Option OsText :=
  given.settings.lookup setting

/-- The value of a setting that is a text. -/
def text? (given : Given) (setting : Setting) : Option String :=
  (given.value? setting).bind OsText.text?

/-- Adds a setting, which must be new. -/
def addSetting? (given : Given) (setting : Setting) (value : OsText) : Option Given :=
  if (given.value? setting).isSome ∨ !accepts setting value then none
  else some { given with settings := given.settings ++ [(setting, value)] }

end Given

/-- What the operand of a command is. -/
inductive OperandKind where
  /-- A path, which must not be empty. -/
  | path
  /-- A text, which has to be UTF-8. -/
  | text
  deriving DecidableEq, Repr

/-- Whether there can be such an operand. -/
def OperandKind.accepts : OperandKind → OsText → Bool
  | .path, operand => operand ≠ ""
  | .text, operand => operand.text?.isSome

/-- Adds the operand, of which there is only one. -/
def Given.addOperand? (kind : OperandKind) (given : Given) (operand : OsText) : Option Given :=
  if given.operand.isSome ∨ !kind.accepts operand then none
  else some { given with operand := some operand }

/-- What a stretch of arguments may hold. -/
structure Grammar where
  switches : List (String × Switch)
  settings : List (String × Setting)
  /-- What a word is; without an operand a word ends the stretch. -/
  operand? : Option OperandKind

namespace Grammar

/-- The switch with a name. -/
def switch? (grammar : Grammar) (name : OsText) : Option Switch :=
  name.text?.bind fun name => grammar.switches.lookup name

/-- The setting with a name. -/
def setting? (grammar : Grammar) (name : OsText) : Option Setting :=
  name.text?.bind fun name => grammar.settings.lookup name

end Grammar

/-- The switches that all commands know. -/
def commonSwitches : List (String × Switch) :=
  [("non-interactive", .nonInteractive), ("json", .json), ("quiet", .quiet)]

/-- The settings that all commands know. -/
def commonSettings : List (String × Setting) :=
  [("config", .settingsFile)]

/-- What may stand in front of the name of a command. -/
def leading : Grammar where
  switches := commonSwitches
  settings := commonSettings
  operand? := none

/-- What may stand behind the name of a command. -/
def CommandName.grammar : CommandName → Grammar
  | .init =>
      { switches := commonSwitches
        settings := commonSettings ++
          [("url", .url), ("repos", .repository), ("uuid", .uuid), ("revision", .revision)]
        operand? := some .path }
  | .lock =>
      { switches := commonSwitches ++ [("write", .write)]
        settings := commonSettings ++ [("depth", .depth)]
        operand? := some .path }
  | .locked | .cleanup =>
      { switches := commonSwitches, settings := commonSettings, operand? := some .path }
  | .auth =>
      { switches := commonSwitches
        settings := commonSettings ++ [("kind", .kind)]
        operand? := some .text }

/-- What reading a stretch of arguments comes to. -/
inductive Reading where
  /-- All arguments were read. -/
  | finished (given : Given)
  /-- A word ended the stretch, with more arguments behind it. -/
  | word (given : Given) (text : OsText) (rest : List OsText)
  /-- The version was asked for. -/
  | version
  /-- Help was asked for. -/
  | help
  /-- An argument cannot be right. -/
  | misuse
  deriving DecidableEq, Repr

/-- What becomes of the letters of short options: more switches, or the end of reading. -/
def readLetters (given : Given) : List UInt8 → Except Reading Given
  | [] => .ok given
  | letter :: rest =>
      if letter = 'q'.toUInt8 then
        match given.addSwitch? .quiet with
        | some given => readLetters given rest
        | none => .error .misuse
      else if letter = 'V'.toUInt8 then .error .version
      else if letter = 'h'.toUInt8 then .error .help
      else .error .misuse

/-- Reads arguments behind the mark `--`, which are all words. -/
def readWords (grammar : Grammar) (given : Given) : List OsText → Reading
  | [] => .finished given
  | text :: rest =>
      match grammar.operand? with
      | none => .misuse
      | some kind =>
          match given.addOperand? kind text with
          | some given => readWords grammar given rest
          | none => .misuse

/-- Reads a stretch of arguments. -/
def read (grammar : Grammar) (given : Given) : List OsText → Reading
  | [] => .finished given
  | argument :: rest =>
      match Token.ofArgument argument with
      | .escape => readWords grammar given rest
      | .word text =>
          match grammar.operand? with
          | none => .word given text rest
          | some kind =>
              match given.addOperand? kind text with
              | some given => read grammar given rest
              | none => .misuse
      | .short letters =>
          match readLetters given letters.bytes with
          | .ok given => read grammar given rest
          | .error reading => reading
      | .long name none =>
          if name = ("version" : OsText) then .version
          else if name = ("help" : OsText) then .help
          else match grammar.switch? name, grammar.setting? name with
            | some switch, _ =>
                match given.addSwitch? switch with
                | some given => read grammar given rest
                | none => .misuse
            | none, some setting =>
                match rest with
                | [] => .misuse
                | next :: rest =>
                    match (Token.asValue? next).bind (given.addSetting? setting) with
                    | some given => read grammar given rest
                    | none => .misuse
            | none, none => .misuse
      | .long name (some value) =>
          match (grammar.setting? name).bind fun setting => given.addSetting? setting value with
          | some given => read grammar given rest
          | none => .misuse

/-- A command with what it is to work on. -/
inductive Command where
  /-- Make a directory versioned. -/
  | init (path : Path) (url : String) (repository uuid : Option String) (revision : Nat)
  /-- Lock what a path stands for, and let it go again. -/
  | lock (path : Path) (depth : String) (write : Bool)
  /-- Tell whether a directory is locked for writing. -/
  | locked (path : Path)
  /-- Remove stale lock files. -/
  | cleanup (path : Path)
  /-- Resolve a credential. -/
  | auth (realm kind : String)
  deriving DecidableEq, Repr

/-- The command that the arguments behind a name describe, if nothing is missing. -/
def command? (name : CommandName) (given : Given) : Option Command := do
  let operand ← given.operand
  match name with
  | .init =>
      let url ← given.text? .url
      let revision := ((given.text? .revision).bind (unsigned? UInt64.size)).getD 0
      return .init ⟨operand⟩ url (given.text? .repository) (given.text? .uuid) revision
  | .lock =>
      return .lock ⟨operand⟩ ((given.text? .depth).getD "infinity")
        (given.switches.contains .write)
  | .locked => return .locked ⟨operand⟩
  | .cleanup => return .cleanup ⟨operand⟩
  | .auth => return .auth (← operand.text?) ((given.text? .kind).getD "simple")

/-- What the program is to do. -/
structure Invocation where
  command : Command
  /-- The file with the settings. -/
  settingsFile : Option Path
  /-- Whether nobody can be asked. -/
  nonInteractive : Bool
  json : Bool
  quiet : Bool
  deriving DecidableEq, Repr

/-- What the arguments ask for. -/
inductive Request where
  /-- To run a command. -/
  | run (invocation : Invocation)
  /-- To show the version of the program or of a command. -/
  | version (command : Option CommandName)
  /-- To show how the program is used. -/
  | help
  /-- Nothing that could be understood. -/
  | misuse
  deriving DecidableEq, Repr

/-- The variable that stands for the switch not to ask anyone. -/
def nonInteractiveVariable : String := "SVNCTX_NON_INTERACTIVE"

/-- Whether the environment says that nobody can be asked. It need not be right where the switch has
been given. -/
def nonInteractive? (environment : Environment) (given : Given) : Option Bool :=
  if given.switches.contains .nonInteractive then some true
  else match environment.get? nonInteractiveVariable with
    | none => some false
    | some value =>
        if value = ("true" : OsText) then some true
        else if value = ("false" : OsText) then some false
        else none

/-- The invocation of a command with what stands in front of its name and behind it. A setting behind
the name comes before the same one in front of it. -/
def invocation? (environment : Environment) (front : Given) (name : CommandName) (behind : Given) :
    Option Invocation := do
  let command ← command? name behind
  let nonInteractiveFront ← nonInteractive? environment front
  let nonInteractiveBehind ← nonInteractive? environment behind
  let switched (switch : Switch) : Bool :=
    front.switches.contains switch || behind.switches.contains switch
  return {
    command
    settingsFile := (behind.value? .settingsFile <|> front.value? .settingsFile).map Path.mk
    nonInteractive := nonInteractiveFront || nonInteractiveBehind
    json := switched .json
    quiet := switched .quiet }

/-- What a word in the place of a command's name asks for. -/
def Request.ofWord (environment : Environment) (front : Given) (text : OsText)
    (rest : List OsText) : Request :=
  match CommandName.ofText? text with
  | some name =>
      match read name.grammar {} rest with
      | .finished behind =>
          match invocation? environment front name behind with
          | some invocation => .run invocation
          | none => .misuse
      | .version => .version (some name)
      | .help => .help
      | .word _ _ _ | .misuse => .misuse
  | none =>
      if text ≠ ("help" : OsText) then .misuse
      else match rest with
        | [] => .help
        | [topic] =>
            if topic = ("help" : OsText) ∨ (CommandName.ofText? topic).isSome then .help else .misuse
        | _ => .misuse

/-- What the arguments ask for. -/
def Request.ofArguments (environment : Environment) (arguments : List OsText) : Request :=
  match read leading {} arguments with
  | .word front text rest => Request.ofWord environment front text rest
  | .version => .version none
  | .help => .help
  | .finished _ | .misuse => .misuse

/-- The name of the program, which stands for that of a command where none is found. -/
def programName : String := "svnctx"

/-- The name of the command in some arguments, found without reading them properly: the first
argument that is no option and not the value of `--config`. All arguments up to it have to be UTF-8. -/
def nameIn : List OsText → Except Panic String
  | [] => .ok programName
  | argument :: rest =>
      match argument.text? with
      | none => .error .unreadableArgument
      | some text =>
          if text = "--config" then
            match rest with
            | [] => .ok programName
            | value :: rest => if value.text?.isSome then nameIn rest else .error .unreadableArgument
          else if isHyphenated argument then nameIn rest
          else .ok text

/-- The name of the command in the arguments of a process, the first of which is how the program was
called. -/
def inferredName (program : OsText) (arguments : List OsText) : Except Panic String :=
  if program.text?.isSome then nameIn arguments else .error .unreadableArgument

/-- The command that an invocation runs. -/
def Command.name : Command → CommandName
  | .init _ _ _ _ _ => .init
  | .lock _ _ _ => .lock
  | .locked _ => .locked
  | .cleanup _ => .cleanup
  | .auth _ _ => .auth

end Checkout.CommandLine
