import Checkout.Auth.Provider

/-!
# The authentication registry

A registry holds a chain of providers and their parameters. A credential in demand is looked up
among the remembered ones first; otherwise the providers of its kind are asked in the order of their
registration, until one has a usable credential or fails. A prompt that gave up is passed over.
-/

namespace Checkout

variable {σ : Type}

/-- What tells one state of a chain from another. -/
structure ChainToken where
  /-- How many registrations there have been. -/
  version : Nat
  /-- How many providers there are. -/
  providers : Nat
  deriving DecidableEq, Repr

/-- A chain of providers with the parameters they share. -/
structure Registry (σ : Type) where
  providers : List (Provider σ) := []
  parameters : Parameters := .empty
  version : Nat := 0

/-- What asking one provider comes to. -/
inductive Answer where
  /-- The provider has a credential. -/
  | grant (credential : Credential)
  /-- The provider has nothing; the next one may have. -/
  | pass
  /-- The provider failed, and with it the resolution. -/
  | failed (error : Error)
  deriving DecidableEq, Repr

/-- How the outcome of a provider counts in a chain. -/
def Answer.ofOutcome : Except Error (Option Credential) → Answer
  | .ok (some credential) => .grant credential
  | .ok none => .pass
  | .error (.promptExhausted _ _ _) => .pass
  | .error error => .failed error

/-- The first answer of a chain of providers that is not passed over. -/
def askChain (environment : Environment) (realm : String) (parameters : Parameters) :
    List (Provider σ) → StateM σ Answer
  | [] => pure .pass
  | provider :: rest => do
      match Answer.ofOutcome (← provider.produce environment realm parameters) with
      | .pass => askChain environment realm parameters rest
      | answer => pure answer

namespace Registry

/-- The state of the chain. -/
def token (registry : Registry σ) : ChainToken where
  version := registry.version
  providers := registry.providers.length

/-- Whether a token was given out for the chain as it is. -/
def isCurrent (registry : Registry σ) (token : ChainToken) : Bool :=
  token = registry.token

/-- The registry with a provider at the end of its chain. -/
def register (registry : Registry σ) (provider : Provider σ) : Registry σ :=
  { registry with
    providers := registry.providers ++ [provider], version := registry.version + 1 }

/-- The registry with a parameter set. -/
def setParameter (registry : Registry σ) (key : String) (value : Parameter) : Registry σ :=
  { registry with parameters := registry.parameters.set key value }

/-- The registry with its parameters overlaid with others. -/
def updateParameters (registry : Registry σ) (parameters : Parameters) : Registry σ :=
  { registry with parameters := registry.parameters.merge parameters }

/-- The registry after it handed out a new credential: it remembers the credential if both the record
and the parameters allow it. -/
def keep (registry : Registry σ) (realm : String) (credential : Credential) : Registry σ :=
  if credential.maySave && registry.parameters.maySave then
    { registry with parameters := registry.parameters.remember realm credential }
  else registry

/-- A credential of a kind for a realm, and the registry afterwards. -/
def resolve (registry : Registry σ) (environment : Environment) (kind : CredentialKind)
    (realm : String) : StateM σ (Except Error Credential × Registry σ) :=
  match registry.parameters.remembered? kind realm with
  | some credential => pure (.ok credential, registry)
  | none => do
      let chain := registry.providers.filter fun provider => provider.kind = kind
      match ← askChain environment realm registry.parameters chain with
      | .grant credential => return (.ok credential, registry.keep realm credential)
      | .pass => return (.error (.noCredential kind realm), registry)
      | .failed error => return (.error error, registry)

/-- Forgets the credential of a kind for a realm; tells whether there was something to forget. -/
def forget (registry : Registry σ) (kind : CredentialKind) (realm : String) : Bool × Registry σ :=
  let key := ParameterKey.remembered kind realm
  ((registry.parameters.get? key).isSome,
    { registry with parameters := registry.parameters.erase key })

end Registry

end Checkout
