import Checkout.Proofs.FileSystem.Lent
import Checkout.Proofs.Lock.Descent
import Checkout.Proofs.WorkingCopy.Reach
import Mathlib.Logic.Function.Basic

/-!
# Calls that race

Several calls open hierarchies at the same time, in one process. Each goes its own way in atomic steps: it
finds its root, locks one directory after another, and if that fails it gives its locks back one by one.
What was opened may be closed again while others are still under way.
-/

namespace Checkout

/-- A call that opens a hierarchy. -/
structure Call where
  path : Path
  write : Bool
  depth : Depth

/-- How far a call has come. -/
inductive Phase where
  | waiting
  /-- It locks directories; some are still to be locked. -/
  | descending (pending : List Task) (taken : List AreaLock)
  /-- It could not lock the directory `stop`, and has these locks left to give back. -/
  | failing (error : Error) (stop : Path) (taken : List AreaLock)
  /-- It has opened its hierarchy, of which these locks have not been closed. -/
  | opened (taken : List AreaLock)

namespace Phase

/-- The locks that a call holds, the last one first. -/
def taken : Phase → List AreaLock
  | waiting => []
  | descending _ taken => taken
  | failing _ _ taken => taken
  | opened taken => taken

/-- The call has opened its hierarchy, whatever of it has been closed since. -/
def Succeeded : Phase → Prop
  | opened _ => True
  | _ => False

/-- The call has ended with a hierarchy, or with an error and without locks. -/
def Ended : Phase → Prop
  | failing _ _ taken => taken = []
  | opened _ => True
  | _ => False

end Phase

/-- Calls under way in one process. -/
structure Race (σ ι : Type) where
  world : World σ
  phase : ι → Phase

namespace Race

variable {σ ι : Type} [DecidableEq ι]

/-- One call goes on to another phase. -/
def advance (race : Race σ ι) (call : ι) (world : World σ) (phase : Phase) : Race σ ι :=
  ⟨world, Function.update race.phase call phase⟩

@[simp]
theorem world_advance (race : Race σ ι) (call : ι) (after : World σ) (phase : Phase) :
    (race.advance call after phase).world = after := rfl

@[simp]
theorem phase_advance_self (race : Race σ ι) (call : ι) (after : World σ) (phase : Phase) :
    (race.advance call after phase).phase call = phase := by
  simp [advance]

theorem phase_advance_of_ne {call other : ι} (apart : other ≠ call) (race : Race σ ι) (after : World σ)
    (phase : Phase) : (race.advance call after phase).phase other = race.phase other := by
  simp [advance, Function.update_of_ne apart]

@[simp]
theorem advance_advance (race : Race σ ι) (call : ι) (first after : World σ) (next phase : Phase) :
    (race.advance call first next).advance call after phase = race.advance call after phase := by
  simp [advance]

/-- A step of one of the calls. -/
inductive Step (calls : ι → Call) : Race σ ι → Race σ ι → Prop where
  | started {race : Race σ ι} {root : Path} (call : ι) (waiting : race.phase call = .waiting)
      (canonical : race.world.files.canonical (calls call).path = .ok root) :
      Step calls race (race.advance call race.world
        (.descending [Task.whole race.world.files (calls call).depth root] []))
  | descended {race : Race σ ι} {pending : List Task} {taken : List AreaLock} {next : Descent σ}
      (call : ι) (phase_eq : race.phase call = .descending pending taken)
      (step : Descent.Step none (calls call).write ⟨race.world, pending, taken⟩ next) :
      Step calls race (race.advance call next.world (.descending next.pending next.taken))
  | refused {race : Race σ ι} {pending rest : List Task} {taken : List AreaLock} {error : Error}
      {failed : Descent σ} {task : Task} (call : ι)
      (phase_eq : race.phase call = .descending pending taken)
      (fails : Descent.Fails none (calls call).write ⟨race.world, pending, taken⟩ error failed)
      (stopped : failed.pending = task :: rest) :
      Step calls race
        (race.advance call failed.world (.failing error task.directory failed.taken))
  | gaveBack {race : Race σ ι} {error : Error} {stop : Path} {lock : AreaLock}
      {taken : List AreaLock} (call : ι) (phase_eq : race.phase call = .failing error stop (lock :: taken)) :
      Step calls race
        (race.advance call (stateAfter lock.release race.world) (.failing error stop taken))
  | finished {race : Race σ ι} {taken : List AreaLock} (call : ι)
      (phase_eq : race.phase call = .descending [] taken) :
      Step calls race (race.advance call race.world (.opened taken))
  | closed {race : Race σ ι} {taken : List AreaLock} {lock : AreaLock} (call : ι)
      (phase_eq : race.phase call = .opened taken) (lock_mem : lock ∈ taken) :
      Step calls race
        (race.advance call (stateAfter lock.release race.world) (.opened (taken.erase lock)))

/-- The race before any call has started. -/
def start (world : World σ) : Race σ ι :=
  ⟨world, fun _ => .waiting⟩

/-! ## Where it starts -/

/-- A directory that one of the calls comes to. -/
def InReach (calls : ι → Call) (files : FileSystem) (directory : Path) : Prop :=
  ∃ call location, files.entry true (calls call).path = .ok (location, .directory) ∧
    Reach files (calls call).depth location.path directory

/-- The lock files of the directories in reach. -/
def lockFiles (calls : ι → Call) (files : FileSystem) : Set Path :=
  Area.lockFile '' {directory | InReach calls files directory}

/-- The calls are for versioned directories of a tree, in which each directory has a lock file of its own, or a
link to one, and nobody has locked anything. -/
structure Ready (calls : ι → Call) (world : World σ) : Prop where
  wellFormed : world.files.WellFormed
  roots : ∀ call, ∃ location, world.files.entry true (calls call).path = .ok (location, .directory) ∧
    world.files.isVersioned location.path = true
  unclaimed : ∀ directory, InReach calls world.files directory →
    world.isClaimed directory = false
  unlocked : ∀ directory location identity, InReach calls world.files directory →
    world.files.Touches (Area.lockFile directory) location →
    world.files.node? location = some (.file identity) → identity ∉ world.files.held
  /-- No two directories share a lock file, through links or under two names. -/
  unshared : ∀ directory other location elsewhere, InReach calls world.files directory →
    InReach calls world.files other → world.files.Touches (Area.lockFile directory) location →
    world.files.Touches (Area.lockFile other) elsewhere →
    (location = elsewhere ∨ ∃ identity, world.files.node? location = some (.file identity) ∧
      world.files.node? elsewhere = some (.file identity)) → directory.same other = true
  /-- No record of a directory is a lock file, so the tree stays what it is. -/
  records : ∀ directory, InReach calls world.files directory →
    world.files.RecordUntouched (lockFiles calls world.files) directory
  childRecords : ∀ directory location name, InReach calls world.files directory →
    world.files.entry true directory = .ok (location, .directory) →
    world.files.node? (location ++ [name]) = some .directory →
    world.files.RecordUntouched (lockFiles calls world.files) (directory.join name)

end Race

end Checkout
