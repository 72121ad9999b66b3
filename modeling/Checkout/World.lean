import Checkout.Environment
import Checkout.FileSystem.Canonical

/-!
# The world of one process

Operations act on the files that all processes share, on the claims that the holders of locks in
this process have made, and on what the caller's callbacks keep. An action either has a result or
fails with an error; what it changed before it failed stays changed, unless it says otherwise.
-/

namespace Checkout

variable {σ : Type} {α : Type}

/-- What the operations of a process act on. -/
structure World (σ : Type) where
  /-- The files. -/
  files : FileSystem
  /-- The directories that are claimed in this process; the spelling of a path does not count. -/
  claims : List (List Component)
  /-- The environment of the process. -/
  environment : Environment
  /-- What the caller's callbacks keep. -/
  caller : σ

namespace World

/-- Whether a directory is claimed. -/
def isClaimed (world : World σ) (directory : Path) : Bool :=
  world.claims.contains directory.components

/-- The world with a directory claimed. -/
def claim (world : World σ) (directory : Path) : World σ :=
  { world with claims := directory.components :: world.claims }

/-- The world without the claim on a directory. -/
def unclaim (world : World σ) (directory : Path) : World σ :=
  { world with claims := world.claims.filter (· ≠ directory.components) }

end World

/-- A step of a process, with a result or an error. -/
abbrev Action (σ : Type) := EStateM Error (World σ)

namespace Action

/-- A change of the files. -/
def ofFiles (action : FileAction α) : Action σ α := fun world =>
  match action world.files with
  | .ok value files => .ok value { world with files }
  | .error error files => .error error { world with files }

/-- A call of a callback. -/
def ofCaller (ask : StateM σ α) : Action σ α := fun world =>
  let (value, caller) := ask world.caller
  .ok value { world with caller }

/-- A look at the world, which changes nothing. -/
def ofLook (look : World σ → Except Error α) : Action σ α := fun world =>
  match look world with
  | .ok value => .ok value world
  | .error error => .error error world

/-- An outcome that is known already. -/
def ofOutcome : Except Error α → Action σ α
  | .ok value => pure value
  | .error error => throw error

/-- The outcome of an action as a value, so that the caller decides what an error means. -/
def outcome (action : Action σ α) : Action σ (Except Error α) := fun world =>
  match action world with
  | .ok value world => .ok (.ok value) world
  | .error error world => .ok (.error error) world

/-- An action whose error does not count. -/
def ignoringErrors (action : Action σ Unit) : Action σ Unit := do
  discard action.outcome

end Action

end Checkout
