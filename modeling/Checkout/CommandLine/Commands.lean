import Checkout.CommandLine.Console
import Checkout.CommandLine.Invocation
import Checkout.Report
import Checkout.Session
import Checkout.Settings.File
import Checkout.WorkingCopy.Cleanup

/-!
# Commands

What each command does, and what it reports. A command acts on a world of its own process, in which
nothing is claimed when it starts.
-/

namespace Checkout.CommandLine

/-- What a command reports when it succeeds. Where a path in it is not UTF-8 there is no data. -/
structure Result where
  data : Except Error Data
  human : HumanReport

/-- The paths as data. -/
def pathList (paths : List Path) : Except Error Data := do
  return .list (← paths.mapM Path.data)

/-- Makes a directory versioned. -/
def runInit (now : Timestamp) (path : Path) (url : String) (repository uuid : Option String)
    (revision : Nat) : Action Console Result := do
  Action.ofFiles (FileSystem.createDirectories path).run
  let path ← Action.ofLook fun world => world.files.canonical path
  let created ← Action.ofFiles (Area.ensure now path uuid url repository revision)
  let entries ← Action.ofLook fun world => world.files.entries path
  let top ← Action.ofLook fun world => world.files.isTop path
  return {
    data := do
      return .record
        [("path", ← path.data), ("url", .text entries.url), ("revision", .integer entries.revision),
          ("created", .flag created), ("wc_root", .flag top)]
    human := {
      header := if created then "svnctx init: created administrative area"
        else "svnctx init: nothing to do"
      summary := [("path", path.shown), ("url", entries.url), ("revision", toString entries.revision)]
      details := if top then [] else ["nested inside the parent working copy"]
      nextSteps := ["svnctx lock " ++ path.shown] } }

/-- Locks what a path stands for, and lets it go again. -/
def runLock (settings : Settings) (path : Path) (depth : String) (write : Bool) :
    Action Console Result := do
  let depth ← Action.ofOutcome (Depth.parse depth)
  let session ← Action.ofOutcome (Session.ofSettings settings)
  let body : LockedAction Console (Path × List Path) := do
    let (_, _, hierarchy) ← get
    return (hierarchy.root, hierarchy.lockedPaths)
  let ((root, locked), _) ← (Session.withLocked path write depth body).runWith session
  return {
    data := do
      return .record
        [("root", ← root.data), ("depth", .text depth.name), ("write_lock", .flag write),
          ("locked", ← pathList locked)]
    human := {
      header := "svnctx lock: " ++ toString locked.length ++ " director" ++
        (if locked.length = 1 then "y" else "ies") ++ " locked and released"
      summary := [("root", root.shown), ("depth", depth.name),
        ("mode", if write then "write" else "read")]
      details := locked.map Path.shown } }

/-- Tells whether a directory is locked for writing. -/
def runLocked (path : Path) : Action Console Result := do
  let path ← Action.ofLook fun world => world.files.canonical path
  let locked ← Action.ofLook fun world => world.files.isWriteLocked path
  let stale := !locked && (← get).files.leadsSomewhere (Area.lockFile path)
  return {
    data := do return .record [("path", ← path.data), ("locked", .flag locked)]
    human := {
      header := if locked then "svnctx locked: locked" else "svnctx locked: not locked"
      summary := [("path", path.shown)]
      warnings := if stale then ["stale lock file present"] else []
      nextSteps := if stale then ["svnctx cleanup " ++ path.shown] else [] } }

/-- Removes stale lock files. -/
def runCleanup (path : Path) : Action Console Result := do
  let path ← Action.ofLook fun world => world.files.canonical path
  let removed ← Cleanup.clean path
  return {
    data := do return .record [("path", ← path.data), ("removed", ← pathList removed)]
    human := {
      header := if removed = [] then "svnctx cleanup: nothing to do"
        else "svnctx cleanup: removed " ++ toString removed.length ++ " stale lock(s)"
      summary := [("path", path.shown)]
      details := removed.map Path.shown } }

/-- A session that offers what the settings say, and asks on the console unless nobody can be asked. -/
def authSession (settings : Settings) (kind : CredentialKind) : Except Error (Session Console) := do
  let session ← Session.ofSettings settings
  let session := session.register (.standard kind)
  return if settings.session.nonInteractive then session
    else session.registerPrompt kind settings.session.retryLimit Console.prompt

/-- Whether the standard provider has a credential for a session. -/
def isOffered (session : Session Console) (kind : CredentialKind) (realm : String) (world : World Console) :
    Bool :=
  match ((Provider.standard kind).produce world.environment realm session.registry.parameters
    world.caller).1 with
  | .ok (some _) => true
  | _ => false

/-- Tells of some events. -/
def tell (events : List Event) : Action Console Unit :=
  Action.ofCaller (modify (·.after events))

/-- What is told of the providers of a session before anybody is asked for a credential. -/
def eventsBefore (session : Session Console) (kind : CredentialKind) (realm : String) (offered : Bool) :
    List Event :=
  session.registry.providers.map .registering ++
    [.resolving kind session.registry.providers.length,
      if offered then .granted kind realm 0 else .hadNothing kind realm 0]

/-- What is told when somebody has been asked for a credential. -/
def eventsBehind (settings : Settings) (kind : CredentialKind) (realm : String) :
    Except Error Credential → List Event
  | .ok _ => [.granted kind realm 1]
  | .error (.noCredential _ _) =>
      if settings.session.nonInteractive then []
      else
        let source : PromptSource Console := ⟨kind, settings.session.retryLimit, Console.prompt⟩
        [.leftEmpty kind realm (source.attempts - 1), .gaveUp kind realm 1 source.attempts]
  | .error _ => []

/-- Resolves a credential, and tells how that went. -/
def resolveTold (settings : Settings) (session : Session Console) (kind : CredentialKind) (realm : String) :
    Action Console (Credential × Session Console) := do
  let offered := isOffered session kind realm (← get)
  tell (eventsBefore session kind realm offered)
  let outcome ← ((Session.resolve kind realm).runWith session).outcome
  unless offered do
    tell (eventsBehind settings kind realm (outcome.map Prod.fst))
  Action.ofOutcome outcome

/-- Resolves a credential. -/
def runAuth (settings : Settings) (realm kind : String) : Action Console Result := do
  let kind ← Action.ofOutcome (CredentialKind.parse kind)
  if kind ≠ .simple ∧ kind ≠ .username then
    throw (.invalidArgument
      ("auth supports simple and username credentials, not " ++ kind.name))
  tell [.sessionCreated]
  let session ← Action.ofOutcome (authSession settings kind)
  let (credential, session) ← resolveTold settings session kind realm
  let cached := (session.registry.parameters.remembered? kind realm).isSome
  let user := credential.user?
  return {
    data := .ok (.record
      [("realm", .text realm), ("kind", .text kind.name), ("username", (user.map .text).getD .null),
        ("cached", .flag cached), ("providers", .integer session.registry.providers.length)])
    human := {
      header := "svnctx auth: credential resolved"
      summary := [("realm", realm), ("kind", kind.name)] ++
        (user.map fun user => ("username", user)).toList
      warnings := if cached then [] else ["credential not cached (auth.no_auth_cache)"] } }

/-- The file with the settings of an invocation. -/
def settingsFile? (environment : Environment) (files : FileSystem) (invocation : Invocation) :
    Option Path :=
  invocation.settingsFile <|> Settings.defaultFile? environment files

/-- The settings of an invocation. -/
def settingsOf (environment : Environment) (files : FileSystem) (invocation : Invocation) :
    Except Error Settings :=
  match settingsFile? environment files invocation with
  | some file => Settings.load files file
  | none => .ok {}

/-- The settings with the switch of an invocation that nobody can be asked. -/
def Invocation.adjust (invocation : Invocation) (settings : Settings) : Settings :=
  { settings with session := { settings.session with
      nonInteractive := settings.session.nonInteractive || invocation.nonInteractive } }

/-- Reads the settings of an invocation. An event tells that they were read from a file. -/
def loadSettings (invocation : Invocation) : Action Console Settings := do
  let world ← get
  let settings ← Action.ofOutcome (settingsOf world.environment world.files invocation)
  if let some file := settingsFile? world.environment world.files invocation then
    tell [.loadedSettings file]
  return settings

/-- Runs the command of an invocation. -/
def runCommand (now : Timestamp) (invocation : Invocation) : Action Console Result :=
  match invocation.command with
  | .init path url repository uuid revision => runInit now path url repository uuid revision
  | .lock path depth write => do
      let settings ← loadSettings invocation
      runLock settings path depth write
  | .locked path => runLocked path
  | .cleanup path => runCleanup path
  | .auth realm kind => do
      let settings ← loadSettings invocation
      runAuth (invocation.adjust settings) realm kind

end Checkout.CommandLine
