import Checkout.Environment
import Checkout.FileSystem.Canonical
import Checkout.Settings.Basic
import Checkout.Toml.Parser
import Checkout.Toml.Printer

/-!
# Settings files

Settings are kept in a TOML file. A user may name one in the environment; otherwise the file in the
user's configuration directory counts, if there is one.
-/

namespace Checkout

namespace Settings

/-- The settings in a document. -/
def decode (document : String) : Except Error Settings :=
  match (Toml.parse? document).bind (ofData? false) with
  | some settings => .ok settings
  | none => .error .malformedToml

/-- The document of settings. -/
def encode (settings : Settings) : Except Error String :=
  match settings.auth.members? with
  | some members => .ok (Toml.render [("auth", members), ("session", settings.session.members)])
  | none => .error .unwritableToml

/-- The acceptable settings in a file. -/
def load (files : FileSystem) (path : Path) : Except Error Settings :=
  match files.read path with
  | .error failure => .error (.io failure)
  | .ok bytes =>
      match String.fromUTF8? bytes with
      | none => .error (.io .notUnicode)
      | some document => do
          let settings ← decode document
          settings.check
          return settings

/-- Writes settings to a file, creating the directories above it. -/
def save (settings : Settings) (path : Path) : FileAction Unit := do
  let document ← FileAction.ofLook fun _ => settings.encode
  if let some parent := path.parent? then (FileSystem.createDirectories parent).run
  (FileSystem.writeFile path document.toUTF8).run

/-- The user's configuration directory; one that is not absolute does not count. -/
def directory? (environment : Environment) : Option Path := do
  let home ← environment.home?
  match environment.get? "XDG_CONFIG_HOME" with
  | some text => if (Path.mk text).isAbsolute then some ⟨text⟩ else some ((Path.mk home).join ".config")
  | none => some ((Path.mk home).join ".config")

/-- Where the user's settings file would be. -/
def defaultPath? (environment : Environment) : Option Path :=
  (directory? environment).map fun directory => (directory.join "svnctx").join "svnctx.toml"

/-- The file that the environment names, else the user's settings file if it is there. -/
def defaultFile? (environment : Environment) (files : FileSystem) : Option Path :=
  match environment.nonempty? "SVNCTX_CONFIG" with
  | some path => some ⟨path⟩
  | none => (defaultPath? environment).filter files.isFile

/-- The settings in the default file, or the default ones if there is no such file. -/
def loadDefault (environment : Environment) (files : FileSystem) : Except Error Settings :=
  match defaultFile? environment files with
  | some path => load files path
  | none => .ok {}

end Settings

end Checkout
