import Checkout.Auth.Parameters
import Checkout.Environment

/-!
# Credential providers

A provider is one way to come by credentials of one kind. A static provider works them out from the
parameters and the environment, or asks a function of the caller; a prompting provider lets a
callback of the caller fill in an empty record, a bounded number of times. What callbacks keep from
call to call is a state `σ` of the caller's choice.
-/

namespace Checkout

variable {σ : Type}

/-- What a prompt is told about the credential in demand. -/
structure PromptContext where
  kind : CredentialKind
  realm : String
  /-- How many attempts have failed already. -/
  priorFailures : Nat
  /-- Whether the record may be remembered if the callback leaves that alone. -/
  maySave : Bool
  /-- The user name to offer. -/
  username : Option String
  /-- The failures of the certificate in question. -/
  failures : CertificateFailures
  deriving DecidableEq, Repr

/-- A callback that fills in a record. -/
abbrev Prompt (σ : Type) :=
  PromptContext → Credential → StateM σ (Except Error Credential)

/-- How a static provider comes by a credential. -/
inductive StaticSource (σ : Type) where
  /-- From the user name and the password in the parameters. -/
  | simple
  /-- From the user name in the parameters, else from the environment. -/
  | username
  /-- From the failures in the parameters, if all of them are trusted. -/
  | trustedFailures
  /-- From the certificate file in the parameters. -/
  | clientCertificate
  /-- From the passphrase in the parameters. -/
  | clientPassphrase
  /-- From a function of the caller. -/
  | custom (derive : String → Parameters → StateM σ (Option Credential))

namespace StaticSource

/-- The name of a source, for descriptions. -/
def name : StaticSource σ → String
  | .simple => "default-simple"
  | .username => "default-username"
  | .trustedFailures => "trusted-failures"
  | .clientCertificate => "client-cert-file"
  | .clientPassphrase => "client-cert-password"
  | .custom _ => "custom"

/-- The credential of a source before the parameters have their say on remembering it. -/
def derive (source : StaticSource σ) (environment : Environment) (realm : String)
    (parameters : Parameters) : StateM σ (Option Credential) :=
  match source with
  | .simple => pure do
      let user ← parameters.text? ParameterKey.username
      let password ← parameters.text? ParameterKey.password
      return .simple user password true
  | .username => pure do
      let user ← parameters.text? ParameterKey.username <|> environment.userName?
      return .username user true
  | .trustedFailures =>
      let failures := parameters.failures ParameterKey.serverFailures
      let trusted := parameters.failures ParameterKey.trustedFailures
      pure (if trusted.contains failures then some (.serverTrust (some failures) true) else none)
  | .clientCertificate => pure do
      let file ← parameters.text? ParameterKey.clientCertificate
      return .clientCertificate ⟨file⟩ true
  | .clientPassphrase => pure do
      let password ← parameters.text? ParameterKey.clientPassphrase
      return .clientPassphrase password true
  | .custom function => function realm parameters

end StaticSource

/-- The record, not to be remembered unless the parameters allow it. -/
def Credential.restrict (parameters : Parameters) (credential : Credential) : Credential :=
  if parameters.maySave then credential else credential.withMaySave false

/-- The credential of a static source. -/
def StaticSource.produce (source : StaticSource σ) (environment : Environment) (realm : String)
    (parameters : Parameters) : StateM σ (Option Credential) := do
  let derived ← source.derive environment realm parameters
  return derived.map (Credential.restrict parameters)

/-- A prompt with the kind it is for and the number of times it may be repeated. -/
structure PromptSource (σ : Type) where
  kind : CredentialKind
  retryLimit : BitVec 32
  prompt : Prompt σ

namespace PromptSource

/-- How often the prompt is asked at most: once more than it may be repeated, as far as the number
can be written in 32 bits. -/
def attempts (source : PromptSource σ) : Nat :=
  min (source.retryLimit.toNat + 1) (UInt32.size - 1)

/-- What the prompt is told in an attempt. -/
def context (source : PromptSource σ) (realm : String) (parameters : Parameters)
    (priorFailures : Nat) : PromptContext where
  kind := source.kind
  realm := realm
  priorFailures := priorFailures
  maySave := parameters.maySave
  username := parameters.text? ParameterKey.username
  failures := parameters.failures ParameterKey.serverFailures

/-- Makes up to `remaining` attempts after `failed` failed ones, each with a new empty record. -/
def attempt (source : PromptSource σ) (realm : String) (parameters : Parameters) (failed : Nat) :
    Nat → StateM σ (Except Error (Option Credential))
  | 0 => pure (.error (.promptExhausted source.kind realm failed))
  | remaining + 1 => do
      let record := Credential.empty source.kind parameters.maySave
      match ← source.prompt (source.context realm parameters failed) record with
      | .error error => pure (.error error)
      | .ok credential =>
          if credential.kind ≠ source.kind then
            pure (.error (.invalidArgument ("prompt for " ++ source.kind.name ++ " returned a " ++
              credential.kind.name ++ " credential")))
          else if credential.isComplete then
            pure (.ok (some (credential.restrict parameters)))
          else
            attempt source realm parameters (failed + 1) remaining

/-- The credential of a prompt; where nobody can be asked there is none. -/
def produce (source : PromptSource σ) (realm : String) (parameters : Parameters) :
    StateM σ (Except Error (Option Credential)) :=
  if parameters.flag ParameterKey.nonInteractive then pure (.ok none)
  else attempt source realm parameters 0 source.attempts

end PromptSource

/-- How a provider comes by a credential. -/
inductive ProviderSource (σ : Type) where
  /-- Without asking anyone. -/
  | static (source : StaticSource σ)
  /-- By a prompt. -/
  | prompt (source : PromptSource σ)

/-- One link of a chain of providers. -/
structure Provider (σ : Type) where
  kind : CredentialKind
  source : ProviderSource σ

namespace Provider

/-- The static provider that belongs to a kind. -/
def standard (kind : CredentialKind) : Provider σ where
  kind := kind
  source := .static (match kind with
    | .simple => .simple
    | .username => .username
    | .serverTrust => .trustedFailures
    | .clientCertificate => .clientCertificate
    | .clientPassphrase => .clientPassphrase)

/-- A provider that asks a prompt. -/
def prompting (kind : CredentialKind) (retryLimit : BitVec 32) (prompt : Prompt σ) : Provider σ where
  kind := kind
  source := .prompt { kind, retryLimit, prompt }

/-- How often a prompt may be repeated. -/
def retryLimit? (provider : Provider σ) : Option (BitVec 32) :=
  match provider.source with
  | .static _ => none
  | .prompt source => some source.retryLimit

/-- Whether the provider asks someone. -/
def isInteractive (provider : Provider σ) : Bool :=
  match provider.source with
  | .static _ => false
  | .prompt _ => true

/-- The record, if it is a complete one of the provider's kind. -/
def usable (provider : Provider σ) (produced : Option Credential) : Option Credential :=
  produced.filter fun credential => credential.kind = provider.kind && credential.isComplete

/-- The provider's credential; a record that is not usable counts as none. -/
def produce (provider : Provider σ) (environment : Environment) (realm : String)
    (parameters : Parameters) : StateM σ (Except Error (Option Credential)) :=
  match provider.source with
  | .static source => do
      let produced ← source.produce environment realm parameters
      return .ok (provider.usable produced)
  | .prompt source => do
      let produced ← source.produce realm parameters
      return produced.map provider.usable

/-- A description of a provider. -/
def describe (provider : Provider σ) : String :=
  let source := match provider.source with
    | .static source => source.name
    | .prompt source => "prompt(retry_limit=" ++ toString source.retryLimit.toNat ++ ")"
  Credential.describeFields "CredentialProvider"
    [("kind", provider.kind.title), ("strategy", quoted source)]

end Provider

end Checkout
