import Checkout.Auth.Registry
import Checkout.Lock.Hierarchy
import Checkout.Settings.Basic

/-!
# Sessions

A session is what a caller keeps over a series of operations: a registry that answers authentication
challenges, and hooks. `Session.withLocked` runs a body with a hierarchy of locks open. Whatever the
body does and however it ends, no lock of the hierarchy outlives it.
-/

namespace Checkout

variable {σ : Type} {α : Type}

/-- What a caller keeps over a series of operations. -/
structure Session (σ : Type) where
  /-- Who answers authentication challenges. -/
  registry : Registry σ := {}
  /-- How the caller takes part in operations. -/
  hooks : Hooks σ := {}

/-- An operation on the world and a session. Both keep what it changed even if it fails. -/
abbrev SessionAction (σ : Type) := EStateM Error (World σ × Session σ)

/-- An operation on a session of its own, which is returned with the result. -/
def SessionAction.runWith (session : Session σ) (action : SessionAction σ α) :
    Action σ (α × Session σ) := fun world =>
  match action (world, session) with
  | .ok value (world, session) => .ok (value, session) world
  | .error error (world, _) => .error error world

/-- A part of an operation that runs with a hierarchy of locks open. -/
abbrev LockedAction (σ : Type) := EStateM Error (World σ × Session σ × Hierarchy)

namespace Session

/-- A session that starts from settings. -/
def ofSettings (settings : Settings) : Except Error (Session σ) := do
  let parameters ← settings.parameters
  let registry : Registry σ := {}
  return { registry := registry.updateParameters parameters }

/-- The session with one more provider. -/
def register (session : Session σ) (provider : Provider σ) : Session σ :=
  { session with registry := session.registry.register provider }

/-- The session with one more provider that asks a prompt. Whether to trust a server is a question
that is asked only once, whatever the limit. -/
def registerPrompt (session : Session σ) (kind : CredentialKind) (retryLimit : BitVec 32)
    (prompt : Prompt σ) : Session σ :=
  session.register (.prompting kind (if kind = .serverTrust then 0 else retryLimit) prompt)

/-- Answers an authentication challenge. -/
def resolve (kind : CredentialKind) (realm : String) : SessionAction σ Credential :=
  fun (world, session) =>
    let ((outcome, registry), caller) :=
      session.registry.resolve world.environment kind realm world.caller
    let state := ({ world with caller }, { session with registry })
    match outcome with
    | .ok credential => .ok credential state
    | .error error => .error error state

/-- Closes a hierarchy after the body of an operation, unless its root is closed already. Returns the
error of closing it, and the world in which none of its locks is open. -/
def closeAfter (hierarchy : Hierarchy) (world : World σ) : Option Error × World σ :=
  let (failure, world, hierarchy) :=
    if hierarchy.isRootOpen then
      match Hierarchy.close (world, hierarchy) with
      | .ok _ (world, hierarchy) => (none, world, hierarchy)
      | .error error (world, hierarchy) => (some error, world, hierarchy)
    else (none, world, hierarchy)
  match hierarchy.drop world with
  | .ok _ world => (failure, world)
  | .error _ world => (failure, world)

/--
Runs a body with the locks for a path open, and closes them afterwards. The session's hook is asked
while the locks are taken. An error of the body comes before an error of closing.
-/
def withLocked (path : Path) (write : Bool) (depth : Depth) (body : LockedAction σ α) :
    SessionAction σ α := fun (world, session) =>
  match Hierarchy.probeOpen session.hooks.cancel write depth path world with
  | .error error world => .error error (world, session)
  | .ok hierarchy world =>
      match body (world, session, hierarchy) with
      | .ok value (world, session, hierarchy) =>
          match closeAfter hierarchy world with
          | (none, world) => .ok value (world, session)
          | (some error, world) => .error error (world, session)
      | .error error (world, session, hierarchy) =>
          .error error ((closeAfter hierarchy world).2, session)

end Session

end Checkout
