import Checkout.Credential.Basic
import Checkout.Data
import Checkout.FileSystem.Failure

/-!
# Errors

Everything an operation can end in other than a result. An error is a cause; its text, its exit code,
its number among the errors of the version-control engine and its structured details follow from it.
-/

namespace Checkout

/-- The engine errors that are told apart. -/
inductive EngineErrorKind where
  | obstructedUpdate
  | workingCopyLocked
  | notLocked
  | invalidLock
  | notWorkingCopy
  | pathNotFound
  | illegalUrl
  | notAuthorized
  | incorrectParameters
  | unsupportedFeature
  | cancelled
  | credentialsUnavailable
  | noProvider
  | providersExhausted
  | credentialsNotSaved
  | authenticationFailed
  deriving DecidableEq, Repr

namespace EngineErrorKind

/-- The engine's number for a kind of error. -/
def code : EngineErrorKind → Nat
  | .obstructedUpdate => 155000
  | .workingCopyLocked => 155004
  | .notLocked => 155005
  | .invalidLock => 155006
  | .notWorkingCopy => 155007
  | .pathNotFound => 155010
  | .illegalUrl => 170000
  | .notAuthorized => 170001
  | .incorrectParameters => 200004
  | .unsupportedFeature => 200007
  | .cancelled => 200015
  | .credentialsUnavailable => 215000
  | .noProvider => 215001
  | .providersExhausted => 215002
  | .credentialsNotSaved => 215003
  | .authenticationFailed => 215004

/-- The name of a kind in documents. -/
def label : EngineErrorKind → String
  | .obstructedUpdate => "wc_obstructed_update"
  | .workingCopyLocked => "wc_locked"
  | .notLocked => "wc_not_locked"
  | .invalidLock => "wc_invalid_lock"
  | .notWorkingCopy => "wc_not_working_copy"
  | .pathNotFound => "wc_path_not_found"
  | .illegalUrl => "ra_illegal_url"
  | .notAuthorized => "ra_not_authorized"
  | .incorrectParameters => "incorrect_params"
  | .unsupportedFeature => "unsupported_feature"
  | .cancelled => "cancelled"
  | .credentialsUnavailable => "authn_creds_unavailable"
  | .noProvider => "authn_no_provider"
  | .providersExhausted => "authn_providers_exhausted"
  | .credentialsNotSaved => "authn_creds_not_saved"
  | .authenticationFailed => "authn_failed"

/-- Every kind. -/
def all : List EngineErrorKind :=
  [.obstructedUpdate, .workingCopyLocked, .notLocked, .invalidLock, .notWorkingCopy, .pathNotFound,
    .illegalUrl, .notAuthorized, .incorrectParameters, .unsupportedFeature, .cancelled,
    .credentialsUnavailable, .noProvider, .providersExhausted, .credentialsNotSaved,
    .authenticationFailed]

/-- The kind with a number. -/
def ofCode? (code : Nat) : Option EngineErrorKind :=
  all.find? fun kind => kind.code = code

end EngineErrorKind

/-- A failure reported by the engine. -/
structure EngineError where
  code : Nat
  message : String
  file : Option String
  line : Option Nat
  deriving DecidableEq, Repr

namespace EngineError

/-- What kind of failure it is, if it is told apart. -/
def kind? (error : EngineError) : Option EngineErrorKind :=
  EngineErrorKind.ofCode? error.code

/-- The text of the failure; a line is only told together with its file. -/
def text (error : EngineError) : String :=
  let place := match error.file, error.line with
    | some file, some line => file ++ ":" ++ toString line ++ " "
    | some file, none => file ++ " "
    | none, _ => ""
  place ++ error.message ++ " (E" ++ toString error.code ++ ")"

/-- The failure as data. -/
def data (error : EngineError) : Data :=
  let optional {α : Type} (value : Option α) (write : α → Data) := (value.map write).getD .null
  .record
    [("code", .integer error.code),
      ("file", optional error.file .text),
      ("kind", optional error.kind? fun kind => .text kind.label),
      ("line", optional error.line fun line => .integer line),
      ("message", .text error.message)]

end EngineError

/-- Why an operation did not succeed. -/
inductive Error where
  /-- The path has no administrative area. -/
  | notWorkingCopy (path : Path)
  /-- The hierarchy never had a lock for the path. -/
  | noLock (path : Path)
  /-- The lock for the path has been closed. -/
  | alreadyClosed (path : Path)
  /-- The caller asked for something impossible. -/
  | invalidArgument (reason : String)
  /-- The settings are not acceptable. -/
  | invalidSettings (reason : String)
  /-- The directory is locked already. -/
  | alreadyLocked (path : Path)
  /-- No provider had a credential. -/
  | noCredential (kind : CredentialKind) (realm : String)
  /-- A prompt was not answered in the attempts it had. -/
  | promptExhausted (kind : CredentialKind) (realm : String) (attempts : Nat)
  /-- The engine failed. -/
  | engine (failure : EngineError)
  /-- An operation on files failed. -/
  | io (failure : IoFailure)
  /-- A document is not the JSON it should be. -/
  | malformedJson
  /-- A document is not the TOML it should be. -/
  | malformedToml
  /-- A path cannot be written as JSON, since it is not UTF-8. -/
  | unwritableJson
  /-- A value cannot be written as TOML. -/
  | unwritableToml
  /-- The caller called the operation off. -/
  | cancelled
  deriving DecidableEq, Repr

/-- Why a program stops without an error that it could report. -/
inductive Panic where
  /-- A path that is not UTF-8 was to be shown as data. -/
  | unwritablePath
  /-- An argument that is not UTF-8 was to be read as a text. -/
  | unreadableArgument
  deriving DecidableEq, Repr

/-- A path as data; it has to be UTF-8. -/
def Path.data (path : Path) : Except Error Data :=
  match path.text.text? with
  | some text => .ok (.text text)
  | none => .error .unwritableJson

namespace Error

/-- The error of an engine failure; a cancellation in the engine is a cancellation. -/
def ofEngine (failure : EngineError) : Error :=
  if failure.kind? = some .cancelled then .cancelled else .engine failure

/-- The text of an error. -/
def message : Error → String
  | .notWorkingCopy path => "'" ++ path.shown ++ "' is not a working copy"
  | .noLock path => "No lock for '" ++ path.shown ++ "' in this hierarchy"
  | .alreadyClosed path => "Lock on '" ++ path.shown ++ "' is already closed"
  | .invalidArgument reason => "Invalid argument: " ++ reason
  | .invalidSettings reason => "Invalid configuration: " ++ reason
  | .alreadyLocked path => "Working copy '" ++ path.shown ++ "' is locked"
  | .noCredential kind realm =>
      "No " ++ kind.name ++ " credential available for realm '" ++ realm ++ "'"
  | .promptExhausted kind realm attempts =>
      "Prompt for " ++ kind.name ++ " credential in realm '" ++ realm ++ "' gave up after " ++
        toString attempts ++ " attempts"
  | .engine failure => "Engine error: " ++ failure.text
  | .io failure => "IO error: " ++ failure.message
  | .malformedJson => "JSON error: unexpected content"
  | .unwritableJson => "JSON error: path contains invalid UTF-8 characters"
  | .malformedToml => "TOML parse error: unexpected content"
  | .unwritableToml => "TOML serialize error: unsupported value"
  | .cancelled => "Operation cancelled"

/-- The exit code of a command that ends in the error: 2 when the user can mend it, 3 when a lock is
in the way, 130 when the user called it off, else 4. -/
def exitCode : Error → Nat
  | .notWorkingCopy _ | .noLock _ | .alreadyClosed _ | .invalidArgument _ | .invalidSettings _ => 2
  | .alreadyLocked _ => 3
  | .noCredential _ _ | .promptExhausted _ _ _ | .engine _ | .io _ | .malformedJson
  | .unwritableJson | .malformedToml | .unwritableToml => 4
  | .cancelled => 130

/-- The engine's number for the error. -/
def engineCode? : Error → Option Nat
  | .alreadyLocked _ => some EngineErrorKind.workingCopyLocked.code
  | .notWorkingCopy _ => some EngineErrorKind.notWorkingCopy.code
  | .noLock _ | .alreadyClosed _ => some EngineErrorKind.notLocked.code
  | .noCredential _ _ => some EngineErrorKind.credentialsUnavailable.code
  | .promptExhausted _ _ _ => some EngineErrorKind.authenticationFailed.code
  | .cancelled => some EngineErrorKind.cancelled.code
  | .invalidArgument _ | .invalidSettings _ => some EngineErrorKind.incorrectParameters.code
  | .engine failure => some failure.code
  | .io _ | .malformedJson | .unwritableJson | .malformedToml | .unwritableToml => none

/-- Whether the caller called the operation off. -/
def isCancelled (error : Error) : Bool :=
  error = .cancelled

/-- The details of an error as data. A path among them has to be UTF-8. -/
def details : Error → Except Panic (Option Data)
  | .alreadyLocked path | .notWorkingCopy path | .noLock path | .alreadyClosed path =>
      match path.data with
      | .ok data => .ok (some (.record [("path", data)]))
      | .error _ => .error .unwritablePath
  | .noCredential kind realm =>
      .ok (some (.record [("kind", .text kind.name), ("realm", .text realm)]))
  | .promptExhausted kind realm attempts =>
      .ok (some (.record
        [("attempts", .integer attempts), ("kind", .text kind.name), ("realm", .text realm)]))
  | .engine failure => .ok (some failure.data)
  | _ => .ok none

/-- The error as a record of text, exit code, engine number and details. -/
def data (error : Error) : Except Panic Data := do
  let optional (name : String) (value : Option Data) := (value.map (name, ·)).toList
  let details ← error.details
  return .record
    ([("error", .text error.message), ("code", .integer error.exitCode)] ++
      optional "svn_code" (error.engineCode?.map fun code => .integer code) ++
      optional "details" details)

end Error

namespace CredentialKind

/-- The kind a user means, or why there is none. -/
def parse (text : String) : Except Error CredentialKind :=
  match ofKeyword? text with
  | some kind => .ok kind
  | none => .error (.invalidArgument ("Invalid credential kind '" ++ text ++
      "'. Expected: simple, username, ssl-server-trust, ssl-client-cert, ssl-client-cert-pw"))

end CredentialKind

namespace CertificateFailures

/-- The failure with a name, or why there is none. -/
def parse (name : String) : Except Error CertificateFailures :=
  match ofName? name with
  | some failure => .ok failure
  | none => .error (.invalidArgument ("Invalid ssl failure '" ++ name ++
      "'. Expected: not-yet-valid, expired, cn-mismatch, unknown-ca, other"))

end CertificateFailures

end Checkout
