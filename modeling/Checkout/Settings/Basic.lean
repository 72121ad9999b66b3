import Checkout.Auth.Parameters

/-!
# Settings

What a user sets once for all operations: the credentials to offer, the certificate failures to trust,
and how a session behaves. Settings become the parameters of a new session. `Settings.check` is the
condition under which settings are accepted.
-/

namespace Checkout

/-- The settings of authentication. -/
structure AuthSettings where
  /-- The user name to offer. -/
  username : Option String := none
  /-- The password to offer. -/
  password : Option String := none
  /-- Whether credentials must not be remembered. -/
  noAuthCache : Bool := false
  /-- The file of the client certificate. -/
  clientCertificate : Option Path := none
  /-- The passphrase of the client certificate. -/
  clientPassphrase : Option String := none
  /-- The names of the certificate failures that are accepted without asking. -/
  trustedFailures : List String := []
  deriving DecidableEq, Repr

/-- The settings of sessions. -/
structure SessionSettings where
  /-- Whether nobody can be asked. -/
  nonInteractive : Bool := false
  /-- How often a prompt may be repeated. -/
  retryLimit : BitVec 32 := 2
  deriving DecidableEq, Repr

/-- All settings. -/
structure Settings where
  auth : AuthSettings := {}
  session : SessionSettings := {}
  deriving DecidableEq, Repr

namespace AuthSettings

/-- Why the name of a trusted failure is not accepted. -/
def unknownFailure (name : String) : Error :=
  .invalidSettings ("auth.ssl_trusted_failures: unknown failure '" ++ name ++
    "' (expected not-yet-valid|expired|cn-mismatch|unknown-ca|other)")

/-- The trusted failures. -/
def trusted (settings : AuthSettings) : Except Error CertificateFailures :=
  settings.trustedFailures.foldlM
    (fun mask name =>
      match CertificateFailures.ofName? name with
      | some failure => .ok (mask.union failure)
      | none => .error (unknownFailure name))
    .empty

/-- Fails unless the settings are acceptable. -/
def check (settings : AuthSettings) : Except Error Unit := do
  if let some username := settings.username then
    if trimBlank username = "" then
      throw (.invalidSettings "auth.username cannot be empty")
  if let some file := settings.clientCertificate then
    if file.text = "" then
      throw (.invalidSettings "auth.ssl_client_cert_file cannot be empty")
  discard settings.trusted

/-- The settings as members of a record, with a text for the path of the certificate; what is not set is
left out. -/
def membersWith (settings : AuthSettings) (certificate : Option String) : List (String × Data) :=
  Data.optionalMember "username" settings.username ++ Data.optionalMember "password" settings.password ++
    [("no_auth_cache", .flag settings.noAuthCache)] ++
    Data.optionalMember "ssl_client_cert_file" certificate ++
    Data.optionalMember "ssl_client_cert_password" settings.clientPassphrase ++
    [("ssl_trusted_failures", .list (settings.trustedFailures.map .text))]

/-- The settings as members of a record. The path of the certificate has to be UTF-8. -/
def members? (settings : AuthSettings) : Option (List (String × Data)) :=
  match settings.clientCertificate with
  | none => some (settings.membersWith none)
  | some file => file.text.text?.map fun text => settings.membersWith (some text)

/-- The settings that data describes; see `Data.fields?` for `exact`. -/
def ofData? (exact : Bool) (data : Data) : Option AuthSettings := do
  let names := ["username", "password", "no_auth_cache", "ssl_client_cert_file",
    "ssl_client_cert_password", "ssl_trusted_failures"]
  match ← data.fields? names exact with
  | [username, password, noAuthCache, certificate, passphrase, trusted] =>
      return {
        username := ← Data.optional? Data.text? username
        password := ← Data.optional? Data.text? password
        noAuthCache := ← Data.withDefault? false Data.flag? noAuthCache
        clientCertificate := (← Data.optional? Data.text? certificate).map fun (file : String) => ⟨file⟩
        clientPassphrase := ← Data.optional? Data.text? passphrase
        trustedFailures := ← Data.withDefault? [] Data.texts? trusted }
  | _ => none

end AuthSettings

namespace SessionSettings

/-- The highest number of repetitions a user may set. -/
def maxRetryLimit : Nat := 10

/-- Fails unless the settings are acceptable. -/
def check (settings : SessionSettings) : Except Error Unit :=
  if maxRetryLimit < settings.retryLimit.toNat then
    .error (.invalidSettings ("session.retry_limit must be <= " ++ toString maxRetryLimit))
  else .ok ()

/-- The settings as members of a record. -/
def members (settings : SessionSettings) : List (String × Data) :=
  [("non_interactive", .flag settings.nonInteractive),
    ("retry_limit", .integer settings.retryLimit.toNat)]

/-- The settings that data describes; see `Data.fields?` for `exact`. -/
def ofData? (exact : Bool) (data : Data) : Option SessionSettings := do
  match ← data.fields? ["non_interactive", "retry_limit"] exact with
  | [nonInteractive, retryLimit] =>
      return {
        nonInteractive := ← Data.withDefault? false Data.flag? nonInteractive
        retryLimit := BitVec.ofNat 32 (← Data.withDefault? 2 (Data.natural? UInt32.size) retryLimit) }
  | _ => none

end SessionSettings

namespace Settings

/-- Fails unless the settings are acceptable. -/
def check (settings : Settings) : Except Error Unit := do
  settings.auth.check
  settings.session.check

/-- The settings as data. -/
def data? (settings : Settings) : Option Data := do
  return .record
    [("auth", .record (← settings.auth.members?)), ("session", .record settings.session.members)]

/-- The settings that data describes; see `Data.fields?` for `exact`. -/
def ofData? (exact : Bool) (data : Data) : Option Settings := do
  match ← data.fields? ["auth", "session"] exact with
  | [auth, session] =>
      return {
        auth := ← Data.withDefault? {} (AuthSettings.ofData? exact) auth
        session := ← Data.withDefault? {} (SessionSettings.ofData? exact) session }
  | _ => none

/-- The parameters that a session with the settings starts from. -/
def parameters (settings : Settings) : Except Error Parameters := do
  let auth := settings.auth
  let setText (key : String) (value : Option String) (parameters : Parameters) : Parameters :=
    match value with
    | some text => parameters.set key (.text text)
    | none => parameters
  let setFlag (key : String) (value : Bool) (parameters : Parameters) : Parameters :=
    if value then parameters.set key (.flag true) else parameters
  let trusted ← auth.trusted
  let parameters := Parameters.empty
    |> setText ParameterKey.username auth.username
    |> setText ParameterKey.password auth.password
    |> setFlag ParameterKey.noAuthCache auth.noAuthCache
    |> setFlag ParameterKey.nonInteractive settings.session.nonInteractive
    |> setText ParameterKey.clientCertificate (auth.clientCertificate.map Path.shown)
    |> setText ParameterKey.clientPassphrase auth.clientPassphrase
  return if trusted.isEmpty then parameters
    else parameters.set ParameterKey.trustedFailures (.failures trusted)

end Settings

end Checkout
