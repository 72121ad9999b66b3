import Checkout.Auth.Provider
import Checkout.Error
import Checkout.Timestamp.Basic

/-!
# What goes to standard error

Besides questions and reports the program writes trace events to standard error, where the environment asks
for them. Which events a filter lets through, and what their lines look like, is up to a library. Each line
carries the time, and some carry the random name of the session.
-/

namespace Checkout.CommandLine

/-- What an event tells under a name. -/
inductive EventValue where
  /-- Something as people get to see it. -/
  | shown (text : String)
  | text (text : String)
  | number (value : Nat)
  | flag (value : Bool)
  /-- The random name of the session. -/
  | session
  deriving DecidableEq, Repr

/-- How much an event matters. -/
inductive EventLevel where
  | warn
  | debug
  | trace
  deriving DecidableEq, Repr

/-- Something that happens while the program runs. -/
structure Event where
  level : EventLevel
  /-- The part of the program that tells it. -/
  source : String
  message : String
  fields : List (String × EventValue)
  deriving DecidableEq, Repr

namespace Event

variable (kind : CredentialKind) (realm : String)

/-- Acceptable settings were read. -/
def loadedSettings (file : Path) : Event :=
  ⟨.debug, "svnctx::config", "loaded config", [("path", .shown file.shown)]⟩

/-- A session was made. -/
def sessionCreated : Event :=
  ⟨.debug, "svnctx::session", "client session created", [("session", .session)]⟩

/-- A provider joins a chain. -/
def registering {σ : Type} (provider : Provider σ) : Event :=
  ⟨.debug, "svnctx::registry", "registering credential provider",
    [("kind", .shown provider.kind.name), ("interactive", .flag provider.isInteractive)]⟩

/-- The command is about to resolve a credential. -/
def resolving (providers : Nat) : Event :=
  ⟨.debug, "svnctx::cli::auth", "resolving credential",
    [("session", .session), ("kind", .shown kind.name), ("providers", .number providers)]⟩

/-- What a chain tells of the provider with a number. -/
def ofProvider (level : EventLevel) (message : String) (index : Nat)
    (more : List (String × EventValue)) : Event :=
  ⟨level, "svnctx::registry", message,
    [("kind", .shown kind.name), ("realm", .text realm), ("index", .number index)] ++ more⟩

/-- A provider had a credential. -/
def granted (index : Nat) : Event :=
  ofProvider kind realm .debug "credential provider succeeded" index []

/-- A provider had none. -/
def hadNothing (index : Nat) : Event :=
  ofProvider kind realm .trace "credential provider had nothing" index []

/-- A prompt has used up its attempts. -/
def gaveUp (index attempts : Nat) : Event :=
  ofProvider kind realm .debug "prompt provider exhausted its retries" index
    [("attempts", .number attempts)]

/-- An attempt has left a record incomplete. -/
def leftEmpty (priorFailures : Nat) : Event :=
  ⟨.trace, "svnctx::provider", "prompt returned an empty credential",
    [("kind", .shown kind.name), ("realm", .text realm), ("prior_failures", .number priorFailures)]⟩

end Event

/-- A passage of what goes to standard error. -/
inductive Passage where
  /-- A text of the program's own. -/
  | text (text : String)
  /-- An event, which may be told in a line. -/
  | event (event : Event)
  /-- The last words of a program that stops without reporting an error. -/
  | panic (panic : Panic)
  deriving DecidableEq, Repr

/-- The texts of the program's own, one after another. -/
def ownText (passages : List Passage) : String :=
  String.join (passages.filterMap fun
    | .text text => some text
    | .event _ | .panic _ => none)

@[simp]
theorem ownText_nil : ownText [] = "" := rfl

@[simp]
theorem ownText_append (first second : List Passage) :
    ownText (first ++ second) = ownText first ++ ownText second := by
  simp [ownText]

@[simp]
theorem ownText_text (text : String) (rest : List Passage) :
    ownText (.text text :: rest) = text ++ ownText rest := by
  simp [ownText]

@[simp]
theorem ownText_singleton (text : String) : ownText [.text text] = text := by
  simp [ownText]

@[simp]
theorem ownText_event (event : Event) (rest : List Passage) :
    ownText (.event event :: rest) = ownText rest := rfl

@[simp]
theorem ownText_events (events : List Event) : ownText (events.map .event) = "" := by
  induction events with
  | nil => rfl
  | cons event rest ih => exact ih

/-- The longest filter that counts, in bytes. -/
def maxFilter : Nat := 4096

/-- The filter for events in the environment. -/
def eventFilter? (environment : Environment) : Option String :=
  ((environment.text? "RUST_LOG").map trimBlank).filter fun filter =>
    filter ≠ "" ∧ filter.utf8ByteSize ≤ maxFilter

/-- What the libraries of the program put on standard error. -/
structure Libraries where
  /-- Which events a filter lets through; not every text is a filter. -/
  admits? : String → Option (Event → Bool)
  /-- The line of an event, by the time and the name of the session. -/
  line : Timestamp → String → Event → String
  panicText : Panic → String

/-- Which events are told: those that the filter in the environment lets through, if there is a filter. -/
def Libraries.admits (libraries : Libraries) (environment : Environment) : Event → Bool :=
  ((eventFilter? environment).bind libraries.admits?).getD fun _ => false

/-- What is different each time the program runs. -/
structure Surroundings where
  /-- What the clock shows at each passage. -/
  time : Nat → Timestamp
  /-- The name of the session. -/
  session : String

/-- What the passages look like on standard error. -/
def stderr (libraries : Libraries) (environment : Environment) (surroundings : Surroundings)
    (passages : List Passage) : String :=
  String.join (passages.zipIdx.map fun
    | (.text text, _) => text
    | (.event event, index) =>
        if libraries.admits environment event then
          libraries.line (surroundings.time index) surroundings.session event
        else ""
    | (.panic panic, _) => libraries.panicText panic)

end Checkout.CommandLine
